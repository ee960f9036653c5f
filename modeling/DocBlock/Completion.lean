import DocBlock.Snippet.Basic
import DocBlock.Text.Lines
import DocBlock.Text.Slice

/-! Completing documentation tags inside an open comment block. -/

namespace DocBlock.Completion

/-- A documentation tag, with the name of its argument if it takes one. -/
structure Tag where
  label : String
  argument : Option String := none
  deriving Repr, DecidableEq

/-- Tags without an argument. -/
def plainTags (labels : List String) : List Tag :=
  labels.map fun label => { label }

/-- Tags that take the same kind of argument. -/
def tagsTaking (argument : String) (labels : List String) : List Tag :=
  labels.map fun label => { label, argument := some argument }

/-- The tags that are offered, in order. -/
def tags : List Tag :=
  plainTags [
    "\x7b", "\x7d", "msc", "endmsc", "note", "file", "details", "short", "since", "test", "brief",
    "return", "returns", "warning", "todo", "dir", "static", "author", "authors", "attention",
    "bug", "copyright", "date", "deprecated", "invariant", "par", "parblock", "endparblock",
    "remarks", "result", "version", "secreflist", "endsecreflist", "tableofcontents", "arg",
    "manonly", "htmlonly", "endhtmlonly", "rtfonly", "endrtfonly", "latexonly", "endlatexonly",
    "xml", "xmlonly", "n", "internal"
  ]
  ++ tagsTaking "name" [
    "defgroup", "addtogroup", "ingroup", "weakgroup", "sa", "see", "ref", "class", "enum", "union",
    "struct"
  ]
  ++ tagsTaking "value" ["retval"]
  ++ tagsTaking "pagename" ["subpage"]
  ++ tagsTaking "subsection-name" ["subsection"]
  ++ tagsTaking "section-name" ["section"]
  ++ tagsTaking "subsubsection-name" ["subsubsection"]
  ++ tagsTaking "name" ["var", "fn", "property", "typedef", "def"]
  ++ tagsTaking "exception-object" ["exception", "throw", "throws"]
  ++ tagsTaking "word" ["anchor"]
  ++ tagsTaking "label" ["cite"]
  ++ tagsTaking "link-object" ["link"]
  ++ plainTags ["endlink"]
  ++ tagsTaking "name" ["refitem"]
  ++ tagsTaking "file-name" ["include", "dontinclude", "includelineno", "includedoc"]
  ++ tagsTaking "pattern" ["line", "skip", "skipline"]
  ++ tagsTaking "file-name" ["snippet", "snippetlineno", "snippetdoc"]
  ++ tagsTaking "pattern" ["until"]
  ++ tagsTaking "file-name" ["verbinclude", "htmlinclude", "latexinclude"]
  ++ tagsTaking "link-object" ["copydoc", "copybrief", "copydetails"]
  ++ tagsTaking "name" ["emoji"]
  ++ tagsTaking "file" ["dotfile", "mscfile", "diafile"]
  ++ tagsTaking "item-description" ["li"]
  ++ tagsTaking "condition" ["cond"]
  ++ plainTags ["endcond"]

/-- The text a tag inserts: the label and a space, with a field for the argument. The label is not
escaped. -/
def Tag.insertText (tag : Tag) : Text :=
  match tag.argument with
  | some argument => tag.label.toList ++ ' ' :: Snippet.fieldText 1 argument.toList ++ [' ']
  | none => tag.label.toList ++ [' ']

/-- How a tag is listed: with its argument in angle brackets. -/
def Tag.listing (tag : Tag) : Text :=
  match tag.argument with
  | some argument => '@' :: tag.label.toList ++ " <".toList ++ argument.toList ++ ['>']
  | none => '@' :: tag.label.toList

/-- The last lines, as many as asked for; zero asks for all, and a negative count leaves out that
many at the front. -/
def lastLines (count : Int) (lines : List Text) : List Text :=
  lines.drop (Text.position lines.length (-count))

/-- The last opening of a documentation comment comes after the last comment end. -/
def isOpenAtEnd (text : Text) : Bool :=
  match Text.lastIndexOf? "/**".toList text, Text.lastIndexOf? "*/".toList text with
  | some opening, some closing => closing < opening
  | some _, none => true
  | none, _ => false

/-- An offset lies inside an open documentation comment, as far as the line of the offset and the
`maxLines` lines before it show. -/
def inside (document : Text) (offset : Int) (maxLines : Int) : Bool :=
  isOpenAtEnd (Text.unlines (lastLines (maxLines + 1) (Text.lines (Text.before offset document))))

/-- Number of lines looked at before an offset. -/
def defaultLines : Int :=
  100

/-- The tags to offer at an offset; none outside a documentation comment. -/
def tagsAt (document : Text) (offset : Int) : List Tag :=
  if inside document offset defaultLines then tags else []

end DocBlock.Completion
