import QuerySplice.Text.Decimal

/-!
# Reports of a syntax check

A parser is asked about a query that is not blank. What it finds wrong becomes a list of problems
in words, and a query without problems is valid.
-/

namespace QuerySplice.Sql

open Text

/-- The dialect in which a query is parsed unless another is named. -/
def defaultDialect : Text := "clickhouse".toList

/-- One error of a parser. The column may be unknown even where the line is known. -/
structure ParseProblem where
  description : Text
  line : Option Int
  column : Option Int

def ParseProblem.message (p : ParseProblem) : Text :=
  let description := if p.description.isEmpty then "syntax error".toList else p.description
  match p.line with
  | none => description
  | some line =>
    let column := match p.column with
      | some column => intText column
      | none => "None".toList
    description ++ " (line ".toList ++ intText line ++ ", col ".toList ++ column ++ [')']

/-- What a parser says about a query. -/
inductive Verdict
  | accepted
  /-- The parser's own text and the errors it lists. -/
  | rejected (text : Text) (problems : List ParseProblem)
  /-- The query does not even split into tokens. -/
  | unreadable (text : Text)

def Verdict.problems : Verdict → List Text
  | .accepted => []
  | .rejected text [] => [text]
  | .rejected _ problems => problems.map ParseProblem.message
  | .unreadable text => [text]

/-- Whether the parser is asked at all. -/
def isParsed (sql : Text) : Bool := !(trim sql).isEmpty

/-- The problems of a query, given what the parser says about it. -/
def problems (verdict : Verdict) (sql : Text) : List Text :=
  if isParsed sql then verdict.problems else ["query is empty".toList]

end QuerySplice.Sql
