import Searchlight.Binary.Decimal
import Searchlight.Query.Basic

/-!
# Queries as text

A leaf shows its only term bare and several terms in quotes; a node shows its parts in
parentheses with its operator between them.
-/

namespace Searchlight.Query

def showTerms : List String → String
  | [t] => t
  | ts => "\"" ++ " ".intercalate ts ++ "\""

/-- Texts in parentheses with a separator between them. -/
def showJoined (separator : String) (parts : List String) : String :=
  "(" ++ separator.intercalate parts ++ ")"

mutual

def text : Query → String
  | freeText terms => showTerms terms
  | field name terms => name ++ ":" ++ showTerms terms
  | all parts => showJoined " & " (texts parts)
  | any parts => showJoined " | " (texts parts)
  | odd parts => showJoined " ^ " (texts parts)
  | except p n => showJoined " - " [p.text, n.text]
  | weight q x => showJoined " * " [q.text, x.text]

def texts : List Query → List String
  | [] => []
  | q :: qs => q.text :: texts qs

end

def description (q : Query) : String := "Query(" ++ q.text ++ ")"

end Searchlight.Query
