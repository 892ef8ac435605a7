import ScriptLint.Fault
import ScriptLint.Engine.Program
import ScriptLint.Engine.Bundle

/-!
# ScriptLint.FileTree

The files that the library reads.

* `Content`: what a file holds
* `FileTree`: files and directories by absolute path
* `locate`: following the parts of a path
* `readText`: the text of a file
-/

namespace ScriptLint

/-- What a file holds: bytes, or a script known only by what it does. -/
inductive Content where
  | bytes (bs : List UInt8)
  | program (p : Engine.Program)

def Content.text (s : String) : Content := .bytes (Text.Utf8.encode s.toList)

inductive Node where
  | directory
  | file (c : Content)
  /-- A file that cannot be read. -/
  | locked

/-- Files and directories by the parts of their absolute paths. The root is always there. -/
structure FileTree where
  nodes : List (List String × Node)

namespace FileTree

def empty : FileTree := ⟨[]⟩

def node? (t : FileTree) (parts : List String) : Option Node :=
  if parts = [] then some .directory else (t.nodes.find? fun n => n.1 == parts).map Prod.snd

def putNode (t : FileTree) (parts : List String) (n : Node) : FileTree :=
  ⟨(parts, n) :: t.nodes.filter fun m => m.1 != parts⟩

def makeDirectories (t : FileTree) (parts : List String) : FileTree :=
  ((List.range parts.length).map fun k => parts.take (k + 1)).foldl
    (fun t here => if (t.node? here).isSome then t else t.putNode here .directory) t

def makeDirectory (t : FileTree) (p : Path) : FileTree := t.makeDirectories p.parts

def write (t : FileTree) (p : Path) (c : Content) : FileTree :=
  (t.makeDirectories p.parts.dropLast).putNode p.parts (.file c)

def lock (t : FileTree) (p : Path) : FileTree :=
  (t.makeDirectories p.parts.dropLast).putNode p.parts .locked

def delete (t : FileTree) (p : Path) : FileTree :=
  ⟨t.nodes.filter fun m => m.1 != p.parts⟩

/-- Follows parts from the place `here`, which must be a directory as long as parts are left. -/
def follow (t : FileTree) : List String → List String → Except FileIssue (List String)
  | here, [] => .ok here
  | here, p :: ps =>
    match t.node? here with
    | none => .error .missing
    | some (.file _) => .error .throughFile
    | some .locked => .error .throughFile
    | some .directory =>
      if p = ".." then follow t here.dropLast ps
      else
        match t.node? (here ++ [p]) with
        | none => .error .missing
        | some _ => follow t (here ++ [p]) ps

/-- What is at a place. Nothing is at a path with a NUL. -/
def locate (t : FileTree) (p : Path) : Except FileIssue Node :=
  if p.hasNul then .error .missing
  else
    match follow t [] p.parts with
    | .error e => .error e
    | .ok here =>
      match t.node? here with
      | some n => .ok n
      | none => .error .missing

def isThere (t : FileTree) (p : Path) : Bool := (t.locate p).isOk

def isFile (t : FileTree) (p : Path) : Bool :=
  match t.locate p with
  | .ok (.file _) => true
  | .ok .locked => true
  | _ => false

def read (t : FileTree) (p : Path) : Except FileIssue Content :=
  match t.locate p with
  | .error e => .error e
  | .ok .directory => .error .directory
  | .ok .locked => .error .denied
  | .ok (.file c) => .ok c

end FileTree

structure ScriptText where
  text : String
  program : Engine.Program

namespace ScriptText

/-- What a script with this text does. Only the two scripts of the library are understood; any other
text is taken to define nothing. -/
def programOf (text : String) : Engine.Program :=
  if text = Engine.Bundle.lintText then .lint
  else if text = Engine.Bundle.hintText then .hint
  else .inert

/-- The text of a file, every line end written as LF, with what it does as a script. -/
def ofContent : Content → Except Text.Utf8.Flaw ScriptText
  | .program p => .ok ⟨"", p⟩
  | .bytes bs =>
    match Text.Utf8.decode bs with
    | .error flaw => .error flaw
    | .ok cs =>
      let text := String.ofList (Text.unifyNewlines cs)
      .ok ⟨text, programOf text⟩

end ScriptText

end ScriptLint
