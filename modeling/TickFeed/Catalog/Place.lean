import TickFeed.Catalog.Source

/-! # Places of reference data

A catalog is loaded from a file, or from a folder that keeps copies of it, of
which the newest counts. -/

namespace TickFeed

structure StoredFile where
  name : String
  /-- When it was last modified, in nanoseconds. -/
  modified : Int
deriving DecidableEq

/-- What is at a path: a folder with the files in it, or something else. -/
inductive Place where
  | folder (files : List StoredFile)
  | noFolder

namespace Place

/-- The last of `files` to be modified, the first one of several. -/
def newest? (files : List StoredFile) : Option StoredFile :=
  files.foldl (fun best f =>
    match best with
    | some b => if b.modified < f.modified then some f else best
    | none => some f) none

def within (folder name : String) : String :=
  if folder.endsWith "/" then folder ++ name else folder ++ "/" ++ name

/-- The path of the newest file in the folder at `path` that has the extension
of a catalog. -/
def latest (path : String) : Place → Except CatalogError String
  | .folder files =>
    match newest? (files.filter fun f => (SourceFormat.ofPath? f.name).isSome) with
    | some f => .ok (within path f.name)
    | none => .error (.noSource path)
  | .noFolder => .error (.unreadable path)

/-- The path of the file to load: `path`, or the newest one in the folder there. -/
def source (path : String) : Place → Except CatalogError String
  | .folder files => (Place.folder files).latest path
  | .noFolder => .ok path

end Place

end TickFeed
