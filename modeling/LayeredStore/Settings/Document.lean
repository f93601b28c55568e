import LayeredStore.Json.Parse
import LayeredStore.Settings.Basic

/-!
# Settings documents

Settings are read from a JSON document. Every field may be left out and then has its default
value; what cannot be used is refused.
-/

namespace LayeredStore

namespace StackChoice

/-- The name of a choice. -/
def name : StackChoice → String
  | .auto => "auto"
  | .coalescing => "coalescing"
  | .metadata => "metadata"

/-- The choice of a name. -/
def ofName? (name : String) : Option StackChoice :=
  [auto, coalescing, metadata].find? fun c => c.name = name

/-- The written form of a choice. -/
def toJson (c : StackChoice) : Json := .string c.name

/-- The choice that is named. -/
def ofJson? (j : Json) : Option StackChoice := (Json.choice? j).bind ofName?

end StackChoice

namespace Settings

/-- How settings are read. -/
def record : Json.Record :=
  ⟨["metadata_ttl_secs", "quota_ttl_secs", "stack", "metadata_ttl_millis", "quota_ttl_millis"],
    0, false⟩

/-- A field that is written only where it has a value. -/
private def millisField (name : String) : Option UInt64 → List (String × Json)
  | some n => [(name, .word n)]
  | none => []

/-- The written form of settings. -/
def toJson (s : Settings) : Json :=
  .fields ([("metadata_ttl_secs", .word s.metadataSeconds),
      ("quota_ttl_secs", .word s.quotaSeconds), ("stack", s.stack.toJson)] ++
    millisField "metadata_ttl_millis" s.metadataMillis ++
    millisField "quota_ttl_millis" s.quotaMillis)

/-- The settings that a record writes, usable or not. -/
def ofJson? (j : Json) : Option Settings := do
  match ← record.fields? j with
  | [metadataSeconds, quotaSeconds, stack, metadataMillis, quotaMillis] =>
    return ⟨← Json.orElse Json.word? default.metadataSeconds metadataSeconds,
      ← Json.orElse Json.word? default.quotaSeconds quotaSeconds,
      ← Json.orElse StackChoice.ofJson? default.stack stack,
      ← Json.optional Json.word? metadataMillis, ← Json.optional Json.word? quotaMillis⟩
  | _ => none

/-- The settings that a document writes, if they can be used. -/
def ofText (text : String) : Except Fault Settings := do
  match (Json.parse? text).bind ofJson? with
  | none => throw .malformed
  | some s =>
    s.validate
    return s

/-- Why a settings file cannot be used. -/
inductive FileFault
  | unreadable
  | invalid (cause : Fault)
deriving DecidableEq

/-- The wording of a fault, without its cause. -/
def FileFault.message : FileFault → String
  | .unreadable => "Failed to read cache configuration"
  | .invalid _ => "Invalid cache configuration in"

/-- The fault inside the file, if it could be read. -/
def FileFault.cause? : FileFault → Option Fault
  | .unreadable => none
  | .invalid cause => some cause

/-- The settings in a file, whose bytes are missing if the file is, and must be UTF-8. -/
def ofFile (content : Option ByteArray) : Except FileFault Settings :=
  match content.bind String.fromUTF8? with
  | none => .error .unreadable
  | some text => (ofText text).mapError .invalid

end Settings
end LayeredStore
