import Acceptor.Descriptor.Schema

/-!
# Published documents

The schema of descriptors is published as a document in a tree of folders.  A document is asked for
by a path from the folder of the documents, without its extension: empty steps and single points
stay in place, two points lead to the folder around, and the name of a folder leads into it.  The
folders around the tree are known by name only; they depend on where the tree was put.
-/

namespace Acceptor

namespace Descriptor

/-- A folder, with the documents in it and the folders inside, both by name. -/
inductive Folder where
  | mk (documents : List (String × Value)) (inside : List (String × Folder))

namespace Folder

/-- A folder with nothing in it. -/
def empty : Folder := ⟨[], []⟩

/-- The document of a name in a folder. -/
def document? : Folder → String → Option Value
  | .mk documents _, name => documents.lookup name

/-- The folder of a name inside a folder. -/
def enter? : Folder → String → Option Folder
  | .mk _ inside, name => inside.lookup name

/-- Follow steps to a document, from the first of the given folders; each of them lies in the next
one.  There is no way up from the last. -/
def follow : List Folder → List String → Option Value
  | [], _ => none
  | _, [] => none
  | here :: _, [name] => here.document? name
  | here :: around, step :: rest =>
    if step = ".." then follow around rest
    else
      match here.enter? step with
      | some folder => follow (folder :: here :: around) rest
      | none => none

/-- The folders around a folder that was put where `site` says: its own name comes first, then that
of the folder around it, and so on. -/
def surroundings (folder : Folder) : List String → List Folder
  | [] => []
  | name :: site =>
    let outer : Folder := ⟨[], [(name, folder)]⟩
    outer :: surroundings outer site

end Folder

namespace Catalogue

/-- The folder of the documents. -/
def schemas : Folder := ⟨[("grammar.schema.json", Schema.document)], []⟩

/-- The folder of what describes grammars. -/
def core : Folder := ⟨[], [("models", .empty), ("schemas", schemas), ("utils", .empty)]⟩

/-- The whole tree. -/
def tree : Folder := ⟨[], [("core", core), ("recognizer", .empty)]⟩

/-- What the names of all documents end in. -/
def extension : String := ".schema.json"

/-- The steps of a path, without those that stay in place. -/
def steps (path : String) : List String :=
  (path.splitOn "/").filter fun step => step != "" && step != "."

/-- The document of a name, if the tree was put where `site` says; a path from the root leads to
none. -/
def find? (site : List String) (name : String) : Option Value :=
  if name.startsWith "/" then none
  else Folder.follow (schemas :: core :: tree :: tree.surroundings site) (steps (name ++ extension))

end Catalogue

end Descriptor

end Acceptor
