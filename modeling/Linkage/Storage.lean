namespace Linkage

-- Why a file cannot be read as text.
inductive FileFault where
  | nulInName
  | notFound
  | isDirectory
  | notDirectory
  | nameTooLong
  | notText
  | other (description : String)
deriving DecidableEq, Repr

def FileFault.message : FileFault → String
  | nulInName => "file name contained an unexpected NUL byte"
  | notFound => "No such file or directory (os error 2)"
  | isDirectory => "Is a directory (os error 21)"
  | notDirectory => "Not a directory (os error 20)"
  | nameTooLong => "File name too long (os error 36)"
  | notText => "stream did not contain valid UTF-8"
  | other description => description

-- A directory that holds files and nothing else. A file's content is absent if it is not text.
structure Folder where
  files : List (String × Option String)

namespace Folder

def empty : Folder :=
  ⟨[]⟩

def steps (path : String) : List String :=
  (path.split (· == '/')).toList.map (·.copy)

-- Steps that stay where they are.
def isIdle (step : String) : Bool :=
  step == "" || step == "."

-- A folder with one file at a path that stays inside it.
def single (path : String) (content : Option String) : Folder :=
  match (steps path).filter fun step => !isIdle step with
  | [name] => ⟨[(name, content)]⟩
  | _ => empty

-- No path is this long, counted in bytes.
def pathLimit : Nat := 4096

-- No step of a path is longer than this.
def stepLimit : Nat := 255

-- What some steps lead to from a directory, which is the folder itself or one outside of it, in
-- which nothing is known to be. There is no way on from a file, not even to stay there.
def walk (folder : Folder) (inside : Bool) : List String → Except FileFault String
  | [] => .error .isDirectory
  | step :: rest =>
      if isIdle step then folder.walk inside rest
      else if step == ".." then folder.walk false rest
      else if stepLimit < step.utf8ByteSize then .error .nameTooLong
      else
        match if inside then folder.files.lookup step else none with
        | none => .error .notFound
        | some content =>
            if !rest.isEmpty then .error .notDirectory
            else
              match content with
              | some text => .ok text
              | none => .error .notText

-- What a path leads to, taken from inside the folder if it does not begin at the outermost
-- directory.
def read (folder : Folder) (path : String) : Except FileFault String :=
  if path.contains '\x00' then .error .nulInName
  else if path.isEmpty then .error .notFound
  else if pathLimit ≤ path.utf8ByteSize then .error .nameTooLong
  else folder.walk (!path.startsWith "/") (steps path)

end Folder

end Linkage
