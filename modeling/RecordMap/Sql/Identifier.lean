import RecordMap.Text.Caseless

/-!
# Identifiers in SQL

A name of letters, digits and underscores that is no keyword is written as it is.  Every other name
stands between double quotes, with the quotes in it doubled.
-/

namespace RecordMap.Sql

def keywords : List String := [
  "ADD", "ALL", "ALTER", "AND", "AS", "ASC", "BETWEEN", "BY", "CASE", "CHECK", "COLLATE",
  "COLUMN", "CONSTRAINT", "CREATE", "CROSS", "DEFAULT", "DELETE", "DESC", "DISTINCT", "DROP",
  "ELSE", "END", "ESCAPE", "EXCEPT", "EXISTS", "FOREIGN", "FROM", "FULL", "GLOB", "GROUP",
  "HAVING", "IF", "IN", "INDEX", "INNER", "INSERT", "INTERSECT", "INTO", "IS", "ISNULL", "JOIN",
  "KEY", "LEFT", "LIKE", "LIMIT", "MATCH", "NOT", "NOTNULL", "NULL", "OF", "OFFSET", "ON", "OR",
  "ORDER", "OUTER", "PRIMARY", "REFERENCES", "REGEXP", "RIGHT", "SELECT", "SET", "TABLE", "THEN",
  "TO", "TRANSACTION", "UNION", "UNIQUE", "UPDATE", "USING", "VALUES", "WHEN", "WHERE"]

def isKeyword (name : String) : Bool := keywords.any fun k => Text.sameCaseless k name

def startsName (c : Char) : Bool := c.isAlpha || c == '_'

def continuesName (c : Char) : Bool := c.isAlphanum || c == '_'

def isPlain (name : String) : Bool :=
  match name.toList with
  | [] => false
  | c :: cs => startsName c && cs.all continuesName && !isKeyword name

/-- The text with each quote in it doubled. -/
def doubled (quote : Char) (cs : List Char) : List Char :=
  cs.flatMap fun c => if c = quote then [c, c] else [c]

/-- The text between two quotes, with the quotes in it doubled. -/
def enclose (quote : Char) (cs : List Char) : List Char := quote :: doubled quote cs ++ [quote]

def identifier (name : String) : String :=
  if isPlain name then name else String.ofList (enclose '\x22' name.toList)

end RecordMap.Sql
