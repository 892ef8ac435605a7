/-!
# ScriptLint.Path

File paths as their parts. Empty parts and single dots carry no meaning and are dropped; double
dots are kept until a path is resolved.

* `Path`: leading slashes and parts
* `parse`, `text`: reading and writing
* `join`, `parent`, `name`: parts of a path
* `resolve`: the absolute path without double dots
* `follow?`: the same, which needs a path that can name a place
-/

namespace ScriptLint

/-- A path: none, one or exactly two leading slashes, then parts. -/
structure Path where
  slashes : Nat
  parts : List String
  deriving DecidableEq, Repr

namespace Path

def pieces : List Char → List (List Char)
  | [] => [[]]
  | c :: cs =>
    if c = '/' then [] :: pieces cs
    else
      match pieces cs with
      | [] => [[c]]
      | p :: ps => (c :: p) :: ps

/-- Two leading slashes are kept; three and more count as one. -/
def leading (cs : List Char) : Nat :=
  match (cs.takeWhile (· == '/')).length with
  | 0 => 0
  | 2 => 2
  | _ => 1

def ofChars (cs : List Char) : Path :=
  ⟨leading cs, (pieces cs).filterMap fun p =>
    if p = [] ∨ p = ['.'] then none else some (String.ofList p)⟩

def parse (s : String) : Path := ofChars s.toList

def text (p : Path) : String :=
  let body := String.intercalate "/" p.parts
  if p.slashes = 0 ∧ p.parts = [] then "."
  else String.ofList (List.replicate p.slashes '/') ++ body

def isAbsolute (p : Path) : Bool := p.slashes != 0

def join (p q : Path) : Path := if q.isAbsolute then q else ⟨p.slashes, p.parts ++ q.parts⟩

def child (p : Path) (name : String) : Path := p.join (parse name)

def name (p : Path) : String := p.parts.getLastD ""

def parent (p : Path) : Path := ⟨p.slashes, p.parts.dropLast⟩

/-- Double dots take back the part before them; at the root they mean nothing. `done` holds the
parts so far, last first. -/
def collapse : List String → List String → List String
  | done, [] => done.reverse
  | done, p :: ps => if p = ".." then collapse done.tail ps else collapse (p :: done) ps

/-- The absolute path without double dots, seen from the directory `cwd`. It starts with a single
slash. -/
def resolve (p cwd : Path) : Path := ⟨1, collapse [] (cwd.join p).parts⟩

/-- Whether there is a NUL in a path. No place has such a path. -/
def hasNul (p : Path) : Bool := p.parts.any fun part => part.toList.contains '\x00'

/-- Following a path from the directory `cwd`, as far as it can be a path of something. -/
def follow? (p cwd : Path) : Option Path :=
  if (cwd.join p).hasNul then none else some (p.resolve cwd)

/-- The path itself and every directory above it, nearest first. -/
def ancestors (p : Path) : List Path :=
  (List.range (p.parts.length + 1)).map fun k => ⟨p.slashes, p.parts.take (p.parts.length - k)⟩

end Path

end ScriptLint
