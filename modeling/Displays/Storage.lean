import Displays.Options

/-!
# The file of remembered options

A JSON object with the options of each display under its display id. Saving changes the entry and
writes the whole file, entries in the order of their ids; a missing file holds nothing.
-/

namespace Displays

open Json (Value)

/-- What stands at a path. -/
inductive File where
  /-- Nothing, but a file can be made. -/
  | missing
  /-- Nothing, not even the directory. -/
  | astray
  /-- A directory. -/
  | directory
  /-- A file with this content. -/
  | regular (bytes : List UInt8)
  deriving DecidableEq, Repr

/-- The content of the file. -/
def File.read : File → Except IoFault (List UInt8)
  | missing => .error .notFound
  | astray => .error .notFound
  | directory => .error .isDirectory
  | regular bytes => .ok bytes

/-- The file with new content. -/
def File.write (bytes : List UInt8) : File → Except IoFault File
  | missing => .ok (.regular bytes)
  | astray => .error .notFound
  | directory => .error .isDirectory
  | regular _ => .ok (.regular bytes)

/-- The options under each display id, in the order of the ids. -/
abbrev Entries := List (String × Options)

/-- Puts options under an id, in place of those that stand there. -/
def Entries.insert (id : String) (o : Options) : Entries → Entries
  | [] => [(id, o)]
  | (k, v) :: rest =>
    if id < k then (id, o) :: (k, v) :: rest
    else if id = k then (id, o) :: rest
    else (k, v) :: Entries.insert id o rest

/-- The entries of a list of ids with options; of those with one id the last one counts. -/
def Entries.ofList (l : List (String × Options)) : Entries :=
  l.foldl (fun entries (id, o) => entries.insert id o) []

/-- The content of a file with these entries. -/
def Entries.print (entries : Entries) : List UInt8 :=
  (Value.ofMembers (entries.map fun (id, o) => (id, o.toValue))).print 0

/-- Reads the content of a file. -/
def Entries.read? (bytes : List UInt8) : Option Entries := do
  let members ← (← Value.read? bytes).members?
  let entries ← members.mapM fun (id, v) => (Options.ofValue? v).map fun o => (id, o)
  return Entries.ofList entries

/-- An open file of remembered options. -/
structure Storage where
  /-- The path of the file. -/
  path : String
  /-- The options under each display id. -/
  entries : Entries
  deriving BEq, Repr

namespace Storage

/-- Opens the file that stands at a path. -/
def ofFile (path : String) (file : File) : Except StorageFault Storage :=
  match file.read with
  | .error .notFound => .ok ⟨path, []⟩
  | .error fault => .error (.io path fault)
  | .ok bytes =>
    match Entries.read? bytes with
    | some entries => .ok ⟨path, entries⟩
    | none => .error (.format path)

/-- The options remembered under a display id. -/
def load? (s : Storage) (id : String) : Option Options :=
  s.entries.lookup id

/-- Remembers options under a display id. The entry changes even where writing fails. -/
def save (s : Storage) (id : String) (o : Options) (file : File) :
    Except StorageFault Unit × Storage × File :=
  let s := { s with entries := s.entries.insert id o }
  match file.write s.entries.print with
  | .ok file => (.ok (), s, file)
  | .error fault => (.error (.io s.path fault), s, file)

end Storage

end Displays
