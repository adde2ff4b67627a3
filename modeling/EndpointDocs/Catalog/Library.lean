import EndpointDocs.Catalog

namespace EndpointDocs.Catalog

def container (name : String) (kind : TypeKind) (parameters supertypes : List String) : TypeDecl :=
  { TypeDecl.named name kind with parameters, supertypes }

/-- The universal types and the usual containers. -/
def libraryTypes : List TypeDecl := [
  container "java.lang.Object" .record [] [],
  container "java.lang.Iterable" .interface ["T"] [],
  container "java.util.Collection" .interface ["E"] ["java.lang.Iterable<E>"],
  container "java.util.List" .interface ["E"] ["java.util.Collection<E>"],
  container "java.util.Set" .interface ["E"] ["java.util.Collection<E>"],
  container "java.util.ArrayList" .record ["E"] ["java.util.List<E>"],
  container "java.util.LinkedList" .record ["E"] ["java.util.List<E>"],
  container "java.util.HashSet" .record ["E"] ["java.util.Set<E>"],
  container "java.util.Map" .interface ["K", "V"] [],
  container "java.util.HashMap" .record ["K", "V"] ["java.util.Map<K, V>"],
  container "java.util.LinkedHashMap" .record ["K", "V"] ["java.util.HashMap<K, V>"],
  container "java.util.TreeMap" .record ["K", "V"] ["java.util.Map<K, V>"],
  container "Collection" .interface ["T"] [],
  container "Map" .interface ["K", "V"] [],
  container "Vec" .record ["T"] ["Collection<T>"],
  container "VecDeque" .record ["T"] ["Collection<T>"],
  container "HashSet" .record ["T"] ["Collection<T>"],
  container "BTreeSet" .record ["T"] ["Collection<T>"],
  container "LinkedList" .record ["T"] ["Collection<T>"],
  container "HashMap" .record ["K", "V"] ["Map<K, V>"],
  container "BTreeMap" .record ["K", "V"] ["Map<K, V>"],
  container "serde_json::Value" .record [] []]

/-- Registers a library type. -/
def insertLibrary (c : Catalog) (t : TypeDecl) : Catalog :=
  { c with library := c.library ++ [t.name] }.insert t

/-- The catalog of the library types alone. -/
def withLibrary : Catalog :=
  libraryTypes.foldl insertLibrary {}

/-- The library types with a project's types on top. -/
def ofProject (ts : List TypeDecl) : Catalog :=
  withLibrary.insertAll ts

end EndpointDocs.Catalog
