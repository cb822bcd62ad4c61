import TexCatalog.Source.Block

/-!
# Cleaning a source file

Before a file is read, its preamble and its comments are dropped, and the environments `figure`
and `tabular` get names of their own, so that the reader passes them on untouched.
-/

namespace TexCatalog.Source

/-- The text between the first `\begin{document}` and the last `\end{document}`, or the whole text
where there is no such pair. -/
def documentBody (s : Text) : Text :=
  match Text.cut? "\\begin\x7bdocument\x7d" s with
  | none => s
  | some (_, after) =>
    match Text.cutLast? "\\end\x7bdocument\x7d" after with
    | none => s
    | some (body, _) => body

/-- A line up to the first percent sign without a backslash in front of it; `escaped` says whether
a backslash stands in front of the line. -/
def beforeComment : Bool → Text → Text
  | _, [] => []
  | escaped, c :: s => if c = '%' ∧ !escaped then [] else c :: beforeComment (c == '\\') s

def dropComments (s : Text) : Text :=
  Text.join ['\n'] ((Text.split '\n' s).map (beforeComment false))

def renameEnvironment (old new s : Text) : Text :=
  Text.replace (closer old) (closer new) (Text.replace (opener old) (opener new) s)

def clean (s : Text) : Text :=
  renameEnvironment "tabular" "rtabular" <|
    renameEnvironment "figure*" "figurefreeze" <|
      renameEnvironment "figure" "figurefreeze" <|
        dropComments (documentBody s)

def readPage (s : Text) : List Block := readBlocks (clean s)

end TexCatalog.Source
