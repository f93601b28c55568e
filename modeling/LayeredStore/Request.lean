import LayeredStore.Item.Basic
import LayeredStore.Outcome

/-!
# Requests

What a provider can be asked, and what it replies: the methods of a `CloudProvider`, as clients
know it, as data.
-/

namespace LayeredStore

/-- The kinds of requests. -/
inductive Operation
  | metadata
  | list
  | quota
  | read
  | write
  | createFolder
  | deleteFile
  | deleteFolder
  | move
deriving DecidableEq

/-- All kinds of requests in their usual order. -/
def Operation.all : List Operation :=
  [.metadata, .list, .quota, .read, .write, .createFolder, .deleteFile, .deleteFolder, .move]

/-- A request to a provider. -/
inductive Request
  /-- What is known of the item at a path. -/
  | metadata (path : Path)
  /-- One page of a folder: the first one, or the one that a token leads to. -/
  | list (folder : Path) (token : Option String)
  /-- How much room a folder has. -/
  | quota (folder : Path)
  /-- The bytes of a file from an offset on, all or at most a number of them. -/
  | read (file : Path) (offset : UInt64) (count : Option UInt64)
  /-- Stores a file, with a time of its own or with the current one. -/
  | write (file : Path) (replace : Bool) (data : ByteArray) (modified : Option Timestamp)
  | createFolder (folder : Path)
  | deleteFile (file : Path)
  | deleteFolder (folder : Path)
  /-- Moves an item with all below it. -/
  | move (source target : Path) (replace : Bool)

/-- The kind of a request. -/
def Request.operation : Request → Operation
  | .metadata .. => .metadata
  | .list .. => .list
  | .quota .. => .quota
  | .read .. => .read
  | .write .. => .write
  | .createFolder .. => .createFolder
  | .deleteFile .. => .deleteFile
  | .deleteFolder .. => .deleteFolder
  | .move .. => .move

/-- What a provider replies. -/
inductive Reply
  | item (item : Item)
  | listing (l : Listing)
  | quota (q : Quota)
  | data (bytes : ByteArray)
  | path (p : Path)
  | done

end LayeredStore
