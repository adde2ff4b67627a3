import EndpointDocs.Settings

namespace EndpointDocs

/-- A name that means a scalar type. -/
structure Scalar where
  name : String
  dataType : DataType
  shortName : String := TypeText.shortName name

namespace Scalar

def known : List (DataType × List String) := [
  (.string, ["string", "date"]),
  (.integer, ["integer"]),
  (.number, ["number"]),
  (.boolean, ["boolean"]),
  (.file, ["file"]),
  (.string, ["java.lang.String", "java.lang.CharSequence", "java.lang.Character", "char",
    "java.util.UUID", "java.util.Date", "java.sql.Date", "java.sql.Timestamp",
    "java.time.LocalDate", "java.time.LocalDateTime", "java.time.LocalTime",
    "java.time.ZonedDateTime", "java.time.OffsetDateTime", "java.time.Instant"]),
  (.integer, ["byte", "short", "int", "long", "java.lang.Byte", "java.lang.Short",
    "java.lang.Integer", "java.lang.Long", "java.math.BigInteger"]),
  (.number, ["float", "double", "java.lang.Float", "java.lang.Double", "java.math.BigDecimal"]),
  (.boolean, ["java.lang.Boolean"]),
  (.file, ["org.springframework.web.multipart.MultipartFile", "java.io.File"]),
  (.string, ["String", "str", "uuid::Uuid", "chrono::NaiveDate", "chrono::NaiveDateTime",
    "chrono::NaiveTime", "chrono::DateTime", "time::OffsetDateTime", "time::PrimitiveDateTime"]),
  (.integer, ["i8", "i16", "i32", "i64", "i128", "isize", "u8", "u16", "u32", "u64", "u128",
    "usize"]),
  (.number, ["f32", "f64"]),
  (.boolean, ["bool"]),
  (.file, ["axum::extract::Multipart", "actix_multipart::Multipart"])]

/-- The known scalars, the last one first. -/
def builtin : List Scalar :=
  (known.flatMap fun (t, names) => names.map fun n => { name := n, dataType := t }).reverse

/-- The known scalars and those of the settings, the last one first. An entry whose label names no
type is passed over. -/
def table (settings : Settings) : List Scalar :=
  (settings.scalars.filterMap fun (name, label) =>
    (DataType.ofLabel? label).map fun t => { name, dataType := t : Scalar }).reverse ++ builtin

/-- The type of the scalar whose full name the reference gives. -/
def named? (table : List Scalar) (text : String) : Option DataType :=
  let name := TypeText.rawName text
  (table.find? (·.name = name)).map (·.dataType)

/-- The type of the scalar whose full name the reference gives, or else of one that has the same
last segment. -/
def loose? (table : List Scalar) (text : String) : Option DataType :=
  let short := TypeText.shortName (TypeText.rawName text)
  (named? table text).or ((table.find? (·.shortName = short)).map (·.dataType))

end Scalar

end EndpointDocs
