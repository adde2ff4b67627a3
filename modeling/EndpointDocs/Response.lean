import EndpointDocs.Resolution

namespace EndpointDocs.Response

/-- The references to binary data, which is never wrapped. -/
def binaryTypes : List String :=
  ["byte[]", "Byte[]", "u8[]", "Vec<u8>", "Bytes", "bytes::Bytes"]

/-- The type that the `return` tag links to. -/
def linkedType? (doc : DocComment) : Option String := do
  let text ← doc.tag? "return"
  let rest ← Chars.afterFirst? "\x7b@link".toList text.toList
  let (inner, _) ← Chars.cutAtFirst '\x7d' rest
  let target ← (Chars.words inner).head?
  return String.ofList (target.reverse.dropWhile (· = '#')).reverse

/-- The first argument of a reference that carries another, again and again. -/
def carried (isCarrier : String → Bool) (text : String) : String :=
  if isCarrier text then
    match h : TypeText.arguments text with
    | inner :: _ =>
      have : inner.length < text.length := TypeText.arguments_length (by simp [h])
      carried isCarrier inner
    | [] => text
  else text
termination_by text.length

/-- The wrapper for a reference, unless it is binary or the wrapper itself. -/
def wrapperFor? (s : Settings) (text : String) : Option String := do
  let wrapper ← Text.contentOf? s.wrapperType
  let name := TypeText.rawName text
  if text ∈ binaryTypes || name = wrapper ||
      TypeText.shortName name = TypeText.shortName wrapper then none
  else return wrapper

/-- The reference to document for a declared return type, `none` if nothing is returned. -/
def typeFor? (p : Project) (declared : String) : Option String :=
  let declared := Text.trim declared
  if TypeText.isVoid declared then none
  else
    let inner := carried (p.catalog.matchesAny p.settings.unwrappedTypes) declared
    if TypeText.isVoid inner then none
    else if inner ≠ declared then some inner
    else
      match wrapperFor? p.settings inner with
      | some wrapper => some (wrapper ++ "<" ++ inner ++ ">")
      | none => some inner

/-- The schema of a method's answer, `none` if it has none. -/
def ofMethod (p : Project) (m : MethodDecl) : Noting (Option Schema) :=
  match typeFor? p ((linkedType? m.doc).getD m.returnType) with
  | none => pure none
  | some text => do
    let found ← Schema.resolve p ⟨.response, .body⟩ [] text
    return found.map fun s =>
      let description := match s.values.getD [] with
        | [] => TypeText.shortName text
        | values => Remarks.valuesText values
      p.withMock
        ({ s with description := some description }.stampDate p text m.annotations .body) none

end EndpointDocs.Response
