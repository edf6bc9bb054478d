import SampleProfiler.Fault

/-!
# `SampleProfiler.CommandLine.Files` — reading a file by its path

A settings file is named by a path. This module reads paths against a directory that is held in memory:
its files are byte sequences, its subdirectories are empty, and it has no links. What keeps a path from
being read is decided part by part, from the left.

## Contents
- **`Directory`** — the entries by name, with `Content`.
- **`Directory.locate`** — follows a path; **`Directory.read`** — the text of the file it names.
- **`decode`** — the text of a byte sequence.
-/

namespace SampleProfiler.CommandLine

/-- What stands under a name. -/
inductive Content where
  | file (bytes : ByteArray)
  | directory

/-- The entries of a directory by name. -/
abbrev Directory := List (String × Content)

/-- The text that a byte sequence encodes. -/
def decode (bytes : ByteArray) : Except FileFault String :=
  match String.fromUTF8? bytes with
  | some text => .ok text
  | none => .error .notText

/-- The place that a path has led to so far: the directory itself, one above it, or an entry of it. -/
inductive Place where
  | here
  | above
  | entry (name : String) (content : Content)

/-- The greatest number of bytes in one part of a path. -/
def nameLimit : Nat := 255

/-- The greatest number of bytes in a whole path. -/
def pathLimit : Nat := 4095

namespace Directory

/-- Goes on from a place by one part of a path. Only a directory can be gone on from. -/
def step (d : Directory) (place : Place) (part : String) : Except FileFault Place :=
  match place with
  | .entry _ (.file _) => .error .notDirectory
  | place =>
    if part.isEmpty || part == "." then .ok place
    else if nameLimit < part.utf8ByteSize then .error .nameTooLong
    else
      match place with
      | .here =>
        if part == ".." then .ok .above
        else
          match d.lookup part with
          | some content => .ok (.entry part content)
          | none => .error .notFound
      | .entry .. => if part == ".." then .ok .here else .error .notFound
      | .above => if part == ".." then .ok .above else .error .notFound

/-- Follows a path from this directory. -/
def locate (d : Directory) (path : String) : Except FileFault Place :=
  if path.toList.contains '\x00' then .error .nulInPath
  else if path.isEmpty then .error .notFound
  else if pathLimit < path.utf8ByteSize then .error .nameTooLong
  else
    let start : Place := if path.startsWith "/" then .above else .here
    (path.splitOn "/").foldlM (step d) start

/-- The text of the file that a path names. -/
def read (d : Directory) (path : String) : Except FileFault String :=
  match d.locate path with
  | .error fault => .error fault
  | .ok (.entry _ (.file bytes)) => decode bytes
  | .ok _ => .error .isDirectory

end Directory

end SampleProfiler.CommandLine
