import NodeWorkflow.Shell.Case

/-!
# Words for truth values

The words that stand for a truth value where only text can be given.
-/
namespace NodeWorkflow.Text

def wordsForFalse : List String := ["0", "off", "f", "false", "n", "no"]

def wordsForTrue : List String := ["1", "on", "t", "true", "y", "yes"]

/-- The truth value that a word in letters of any case stands for. -/
def truthOf? (s : String) : Option Bool :=
  if wordsForFalse.contains (lower s) then some false
  else if wordsForTrue.contains (lower s) then some true
  else none

end NodeWorkflow.Text
