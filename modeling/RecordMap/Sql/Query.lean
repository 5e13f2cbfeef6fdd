import RecordMap.Sql.Literal

/-!
# Queries

A query is SQL text together with the values of its placeholders, in the order in which they stand.
A statement that binds values is put together from pieces, each bound value and its placeholder
being one piece.
-/

namespace RecordMap.Sql

structure Query where
  text : String
  params : List Value
  deriving DecidableEq

inductive Piece
  | text (s : String)
  | bound (v : Value)
  deriving DecidableEq

namespace Piece

/-- The lists of pieces one after the other, with `separator` between any two. -/
def separated (separator : String) : List (List Piece) → List Piece
  | [] => []
  | [ps] => ps
  | ps :: rest => ps ++ .text separator :: separated separator rest

end Piece

namespace Query

def empty : Query := ⟨"", []⟩

def append (q r : Query) : Query := ⟨q.text ++ r.text, q.params ++ r.params⟩

def ofPieces : List Piece → Query
  | [] => empty
  | .text s :: ps => ⟨s ++ (ofPieces ps).text, (ofPieces ps).params⟩
  | .bound v :: ps => ⟨"?" ++ (ofPieces ps).text, v :: (ofPieces ps).params⟩

/-- The query with more text in front of it and behind it. -/
def between (front back : String) (q : Query) : Query := ⟨front ++ q.text ++ back, q.params⟩

end Query

end RecordMap.Sql
