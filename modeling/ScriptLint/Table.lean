import ScriptLint.Json.Writer

/-!
# ScriptLint.Table

Rows of named values as an aligned table or as a document.

* `stringify`: the text of a value in a cell, if it has one
* `Table.lines`: header, separator and rows, each column as wide as its widest cell
* `Table.render`: the table or the document, if all cells have texts
-/

namespace ScriptLint

/-- The text of a value in a cell: nothing for null, scalars as they are, the document of the
rest. -/
def stringify (v : Value) : Except Fault String :=
  match v with
  | .null => .ok ""
  | .bool b => .ok (if b then "true" else "false")
  | .int i => if Digits.isWritable i then .ok v.text else .error .unwritable
  | .float _ => .ok v.text
  | .str s => .ok s
  | .choice c => .ok c.text
  | _ => v.encode

/-- What stands in a cell for a value. A table is rendered only if all its cells have texts. -/
def cellText (v : Value) : String := (stringify v).toOption.getD ""

namespace Table

abbrev Row := List (Value × Value)

/-- The value in a column of a row; what the row does not name is null. -/
def valueAt (header : String) : Row → Value
  | [] => .null
  | (k, v) :: es => if k.sameKey (.str header) then v else valueAt header es

def cell (r : Row) (header : String) : String := cellText (valueAt header r)

/-- The widest cell of a column, the header included. -/
def width (rows : List Row) (header : String) : Nat :=
  (rows.map fun r => (cell r header).length).foldl max header.length

/-- Cells next to each other, each filled up with blanks to the width of its column. -/
def joinCells (cells : List (String × Nat)) : String :=
  String.intercalate " | " (cells.map fun (s, w) => String.ofList (Digits.padRight ' ' w s.toList))

def trimLine (s : String) : String := String.ofList (Text.trimEnd Text.isSpace s.toList)

def separatorLine (widths : List Nat) : String :=
  String.intercalate "-+-" (widths.map fun w => String.ofList (List.replicate w '-'))

def rowLine (widths : List Nat) (cells : List String) : String := trimLine (joinCells (cells.zip widths))

def lines (rows : List Row) (headers : List String) : List String :=
  if rows.isEmpty then ["<empty>"]
  else
    let widths := headers.map (width rows)
    rowLine widths headers :: separatorLine widths
      :: rows.map fun r => rowLine widths (headers.map (cell r))

def rowsValue (rows : List Row) : Value := .list (rows.map .dict)

/-- Why a cell has no text, for the first such cell of a column. -/
def columnFault? (header : String) : List Row → Option Fault
  | [] => none
  | r :: rs =>
    match stringify (valueAt header r) with
    | .error f => some f
    | .ok _ => columnFault? header rs

/-- Rows in one of the two formats, as lines; the document is one of them. -/
def render (rows : List Row) (headers : List String) : DataFormat → Except Fault (List String)
  | .text =>
    match headers.findSome? fun header => columnFault? header rows with
    | some f => .error f
    | none => .ok (lines rows headers)
  | .json =>
    match (rowsValue rows).pretty with
    | .ok text => .ok [text]
    | .error f => .error f

end Table

end ScriptLint
