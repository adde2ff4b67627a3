import EndpointDocs.Member
import EndpointDocs.Proofs.Catalog.Lookup

namespace EndpointDocs

theorem Schema.stampDate_eq (s : Schema) (p : Project) (text : String)
    (annotations : List Annotation) (carrier : Carrier) :
    s.stampDate p text annotations carrier = { s with
      dateFormat := if s.dateFormat.isSome || !s.dataType.isScalar then s.dateFormat
        else DateFormat.find? p text annotations carrier } := by
  unfold stampDate
  cases s
  split
  · simp_all
  · simp_all

namespace Member

variable (m : Member) (p : Project) (u : Usage) (text : String) (s : Schema)

theorem describe_name :
    (m.describe p u text s).name = Remarks.memberName m.annotations m.name := by
  rw [describe, Schema.stampDate_eq]
  rfl

@[simp] theorem describe_dataType : (m.describe p u text s).dataType = s.dataType := by
  rw [describe, Schema.stampDate_eq]
  rfl

@[simp] theorem describe_items : (m.describe p u text s).items = s.items := by
  rw [describe, Schema.stampDate_eq]
  rfl

@[simp] theorem describe_properties : (m.describe p u text s).properties = s.properties := by
  rw [describe, Schema.stampDate_eq]
  rfl

/-- A member is described alike whatever the types of the catalog are, as long as they keep their
names. -/
theorem describe_mapTypes {g : TypeDecl → TypeDecl} (hname : ∀ t, (g t).name = t.name) :
    m.describe (p.mapTypes g) u text s = m.describe p u text s := by
  have hdate : DateFormat.isDate (p.mapTypes g) text = DateFormat.isDate p text := by
    rw [DateFormat.isDate, Project.matchesAny_mapTypes hname, DateFormat.isDate]
    rfl
  have hstamp (s : Schema) : s.stampDate (p.mapTypes g) text m.annotations u.carrier =
      s.stampDate p text m.annotations u.carrier := by
    rw [Schema.stampDate, Schema.stampDate, DateFormat.find?, DateFormat.find?, hdate]
    rfl
  unfold describe
  simp only [hstamp]
  rfl

end Member

end EndpointDocs
