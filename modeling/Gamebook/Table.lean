import Gamebook.Text.Parts
import Gamebook.Text.Width

namespace Gamebook

namespace Table

/-- A cell takes a line for each line of its text. -/
abbrev Row := List (List (List Char))

def linesOf (s : String) : List (List Char) :=
  let (first, others) := split '\n' s.toList
  first :: others

def rowOf (cells : List String) : Row := cells.map linesOf

def cellWidth (lines : List (List Char)) : Nat := (lines.map columns).foldl max 0

def widen (widths : List Nat) (row : Row) : List Nat :=
  List.zipWith (fun w cell => max w (cellWidth cell)) widths row

def widths (heading : Row) (rows : List Row) : List Nat :=
  rows.foldl widen (heading.map cellWidth)

def line (left fill middle right : Char) (widths : List Nat) : List Char :=
  let segments := widths.map fun w => List.replicate (w + 2) fill
  left :: (List.intercalate [middle] segments ++ [right])

def padded (width : Nat) (text : List Char) : List Char :=
  text ++ List.replicate (width - columns text) ' '

def textLine (widths : List Nat) (texts : List (List Char)) : List Char :=
  List.zipWith (fun w t => '|' :: ' ' :: (padded w t ++ [' '])) widths texts |>.flatten |> (· ++ ['|'])

def rowLines (widths : List Nat) (row : Row) : List (List Char) :=
  let height := (row.map List.length).foldl max 0
  (List.range height).map fun i => textLine widths (row.map fun cell => (cell[i]?).getD [])

/-- Columns are as wide as their widest cells, and a double line closes the heading. -/
def render (heading : List String) (rows : List (List String)) : String :=
  let heading := rowOf heading
  let rows := rows.map rowOf
  let widths := widths heading rows
  let edge := line '+' '-' '+' '+' widths
  let parted := List.intercalate [line '|' '-' '+' '|' widths] (rows.map (rowLines widths))
  let lines := edge :: rowLines widths heading ++ line '+' '=' '=' '+' widths :: parted ++ [edge]
  String.ofList (List.intercalate ['\n'] lines)

end Table

end Gamebook
