import LineBasic.Assoc

namespace LineBasic

/-- The files of the working folder under their paths, and the folders below it. -/
structure Disk where
  files : Assoc String (List UInt8)
  folders : List String

namespace Disk

def joinPath (parts : List String) : String := "/".intercalate parts

def pathParts (path : String) : List String := (path.toList.splitOn '/').map String.ofList

/-- The folder that some parts of a path lead to, as its own parts in reverse. A step out of the
working folder leads nowhere. -/
def walk? (d : Disk) : List String → List String → Option (List String)
  | here, [] => some here
  | here, part :: parts =>
      if part = "" ∨ part = "." then walk? d here parts
      else if part = ".." then
        match here with
        | [] => none
        | _ :: up => walk? d up parts
      else if d.folders.contains (joinPath (part :: here).reverse) then
        walk? d (part :: here) parts
      else none

def hasNull (path : String) : Bool := path.toList.contains (Char.ofNat 0)

def nameLimit : Nat := 255

def pathLimit : Nat := 4095

def resolve? (d : Disk) (path : String) : Option String :=
  if path.startsWith "/" ∨ hasNull path ∨ pathLimit < path.utf8ByteSize then none
  else
    let parts := pathParts path
    match parts.getLast? with
    | none => none
    | some name =>
        if name = "" ∨ name = "." ∨ name = ".." ∨ nameLimit < name.utf8ByteSize then none
        else do
          let folder ← walk? d [] parts.dropLast
          let plain := joinPath (name :: folder).reverse
          if d.folders.contains plain then none else some plain

def read? (d : Disk) (path : String) : Option (List UInt8) := d.files.get? path

def write (d : Disk) (path : String) (bytes : List UInt8) : Disk :=
  { d with files := d.files.put path bytes }

def overlay (old : List UInt8) (offset : Nat) (new : List UInt8) : List UInt8 :=
  old.take offset ++ List.replicate (offset - old.length) 0 ++ new ++
    old.drop (offset + new.length)

def parents (path : String) : List String :=
  let parts := pathParts path
  (List.range (parts.length - 1)).map fun i => joinPath (parts.take (i + 1))

def ofFiles (files : List (String × List UInt8)) : Disk :=
  { files := files.foldl (fun m f => Assoc.put m f.1 f.2) []
    folders := "BAS" :: files.flatMap fun f => parents f.1 }

def listing (d : Disk) : List (String × List UInt8) :=
  d.files.mergeSort fun a b => a.1 ≤ b.1

def sameFiles (a b : Disk) : Bool := a.listing == b.listing

end Disk

end LineBasic
