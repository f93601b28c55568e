import LayeredStore.Item.Basic

/-!
# Paths, items, listings and quotas in records

The written form has every field, `null` for one without a value. Reading lets an item leave out
its time and its size, and a quota its totals. Reading a path takes the segments as they are: empty
ones stay, and a segment may hold a separator.
-/

namespace LayeredStore

namespace Path

/-- How a path is read. -/
def record : Json.Record := ⟨["absolute", "segments"], 2, false⟩

/-- The written form of a path. -/
def toJson (p : Path) : Json :=
  .fields [("absolute", .bool p.absolute), ("segments", .array (p.segments.map Json.string))]

/-- The path that a record writes. -/
def ofJson? (j : Json) : Option Path := do
  match ← record.fields? j with
  | [absolute, segments] =>
    return ⟨← Json.required Json.bool? absolute,
      ← Json.required (Json.list? Json.string?) segments⟩
  | _ => none

end Path

namespace Kind

/-- The name of a kind. -/
def name : Kind → String
  | .file => "file"
  | .folder => "folder"
  | .unknown => "unknown"

/-- The kind of a name. -/
def ofName? (name : String) : Option Kind :=
  [file, folder, unknown].find? fun k => k.name = name

/-- The written form of a kind. -/
def toJson (k : Kind) : Json := .string k.name

/-- The kind that a choice names. -/
def ofJson? (j : Json) : Option Kind := (Json.choice? j).bind ofName?

end Kind

namespace Item

/-- How an item is read: an array may end before the time or before the size. -/
def record : Json.Record := ⟨["name", "path", "item_type", "last_modified", "size"], 3, false⟩

/-- The written form of an item. -/
def toJson (item : Item) : Json :=
  .fields [("name", .string item.name), ("path", item.path.toJson),
    ("item_type", item.kind.toJson), ("last_modified", .option Timestamp.toJson item.modified),
    ("size", .option Json.word item.size)]

/-- The item that a record writes. -/
def ofJson? (j : Json) : Option Item := do
  match ← record.fields? j with
  | [name, path, kind, modified, size] =>
    return ⟨← Json.required Json.string? name, ← Json.required Path.ofJson? path,
      ← Json.required Kind.ofJson? kind, ← Json.optional Timestamp.ofJson? modified,
      ← Json.optional Json.word? size⟩
  | _ => none

end Item

namespace Listing

/-- How a listing is read: an array gives the token, an object may leave it out. -/
def record : Json.Record := ⟨["items", "next_page_token"], 2, false⟩

/-- The written form of a listing. -/
def toJson (l : Listing) : Json :=
  .fields [("items", .array (l.items.map Item.toJson)),
    ("next_page_token", .option Json.string l.nextToken)]

/-- The listing that a record writes. -/
def ofJson? (j : Json) : Option Listing := do
  match ← record.fields? j with
  | [items, nextToken] =>
    return ⟨← Json.required (Json.list? Item.ofJson?) items,
      ← Json.optional Json.string? nextToken⟩
  | _ => none

end Listing

namespace Quota

/-- How a quota is read: an array may end after the room that is available. -/
def record : Json.Record := ⟨["available_bytes", "total_bytes", "used_bytes"], 1, false⟩

/-- The written form of a quota. -/
def toJson (q : Quota) : Json :=
  .fields [("available_bytes", .word q.available), ("total_bytes", .option Json.word q.total),
    ("used_bytes", .option Json.word q.used)]

/-- The quota that a record writes. -/
def ofJson? (j : Json) : Option Quota := do
  match ← record.fields? j with
  | [available, total, used] =>
    return ⟨← Json.required Json.word? available, ← Json.optional Json.word? total,
      ← Json.optional Json.word? used⟩
  | _ => none

end Quota
end LayeredStore
