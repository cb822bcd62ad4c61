import TexCatalog.Failure
import TexCatalog.Html.Tree
import TexCatalog.Text.Classes

/-!
# Formulas

A formula stands on the page in its source form. With a typesetting script it is put between the
delimiters for which the script looks; the backend without a script marks it as not converted.
-/

namespace TexCatalog

inductive MathBackend where
  | katex
  | mathml
  | mathjax
  deriving DecidableEq, Repr

namespace MathBackend

def name : MathBackend → Text
  | .katex => "katex"
  | .mathml => "mathml"
  | .mathjax => "mathjax"

def ofName? (s : Text) : Option MathBackend :=
  [MathBackend.katex, .mathml, .mathjax].find? fun b => b.name == s

def ofText (s : Text) : Except Failure MathBackend :=
  let name := (Text.trim s).map Char.toLower
  match ofName? name with
  | some backend => .ok backend
  | none => .error (.setting "math" ("unknown math backend " ++ Text.quoted name))

def inline (backend : MathBackend) (formula : Text) : Html :=
  match backend with
  | .mathml => .element .span [⟨"class", "math inline math-error"⟩] [.text (Text.trim formula)]
  | _ => .element .span [⟨"class", "math inline"⟩] [.text ("\\(" ++ Text.trim formula ++ "\\)")]

def display (backend : MathBackend) (formula : Text) : Html :=
  match backend with
  | .mathml => .element .div [⟨"class", "math display math-error"⟩] [.text (Text.trim formula)]
  | _ => .element .div [⟨"class", "math display"⟩] [.text ("\\[" ++ Text.trim formula ++ "\\]")]

def katexHead : Text :=
  Text.join ['\n'] [
    "<link rel=\"stylesheet\" href=\"https://cdn.jsdelivr.net/npm/katex@0.16.9/dist/katex.min.css\" crossorigin=\"anonymous\">",
    "<script defer src=\"https://cdn.jsdelivr.net/npm/katex@0.16.9/dist/katex.min.js\" crossorigin=\"anonymous\"></script>",
    "<script defer src=\"https://cdn.jsdelivr.net/npm/katex@0.16.9/dist/contrib/auto-render.min.js\" crossorigin=\"anonymous\"",
    "    onload=\"renderMathInElement(document.body, \x7b",
    "        delimiters: [",
    "            \x7bleft: '\\\\[', right: '\\\\]', display: true\x7d,",
    "            \x7bleft: '\\\\(', right: '\\\\)', display: false\x7d",
    "        ]",
    "    \x7d);\"></script>"]

def mathjaxHead : Text :=
  Text.join ['\n'] [
    "<script>",
    "MathJax = \x7b",
    "    tex: \x7b",
    "        inlineMath: [['\\\\(', '\\\\)']],",
    "        displayMath: [['\\\\[', '\\\\]']]",
    "    \x7d",
    "\x7d;",
    "</script>",
    "<script id=\"MathJax-script\" async src=\"https://cdn.jsdelivr.net/npm/mathjax@3/es5/tex-mml-chtml.js\"></script>"]

def mathmlHead : Text :=
  Text.join ['\n'] [
    "<style>",
    ".math-error \x7b",
    "    color: #b00;",
    "    font-family: monospace;",
    "\x7d",
    "math \x7b",
    "    font-size: 1.1em;",
    "\x7d",
    "</style>"]

def head : MathBackend → Text
  | .katex => katexHead
  | .mathml => mathmlHead
  | .mathjax => mathjaxHead

end MathBackend

end TexCatalog
