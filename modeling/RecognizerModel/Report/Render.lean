import RecognizerModel.Report.Drawing

/-!
Diagnostics drawn against the source they point into: a title, the lines with the marks below them,
and notes.
-/
namespace RecognizerModel.Report

structure Options where
  source : Option String := none
  /-- Shown in front of the line and column. -/
  path : Option String := none
  colored : Bool := false

/-- A text behind a heading; further lines of the text begin below its first. -/
def headed (heading : Row) (write : List Char → Row) (text : List Char) : List Row :=
  match Text.pieces '\n' text with
  | [] => [heading]
  | first :: rest =>
    (heading ++ write first) :: rest.map fun line => Row.blanks heading.length ++ write line

def title (severity : Severity) (message : String) : List Row :=
  let heading := Row.inked (.ofSeverity severity) severity.name.toList ++ Row.inked .bold [':', ' ']
  headed heading (fun line => Row.inked .bold (shown line)) message.toList

/-- A row without a number. -/
def gutter (digits : Nat) : Row :=
  Row.blanks (digits + 1) ++ [Layout.edge]

def note (digits : Nat) (name text : String) : List Row :=
  let heading := Row.blanks (digits + 1) ++ Row.inked .blue ['=', ' '] ++
    Row.inked .bold name.toList ++ Row.plain [':', ' ']
  headed heading Row.plain text.toList

/-- The marks of a diagnostic: its own, and those of the related places. -/
def marksOf (source : String) (d : Diagnostic) : List Mark :=
  let lines := linesOf source
  let mark (span : Span) (pen : Pen) (label : String) : Mark :=
    ⟨.ofSpan lines (clamp source.utf8ByteSize span), pen, label.toList⟩
  let label := (d.rule.map fun rule => s!"in rule `{rule}`").getD ""
  mark d.span (.own d.severity) label :: d.related.map fun r => mark r.span .related r.message

/-- The drawing of one diagnostic. -/
def draw (source : String) (path : Option String) (d : Diagnostic) : List Row :=
  let lines := linesOf source
  let (body, digits) := drawMarks lines (marksOf source d)
  let location := match path with
    | some path =>
      let (line, character) := placeOf lines (clamp source.utf8ByteSize d.span).start
      [Row.blanks digits ++ Row.inked .blue ['-', '-', '>', ' '] ++
        Row.plain s!"{path}:{line}:{character}".toList]
    | none => []
  let point := (d.point.map fun p => note digits "note" s!"construction point `{p.name}`").getD []
  let notes := point ++ d.hints.flatMap (note digits "help")
  title d.severity d.message ++ location ++ [gutter digits] ++ body ++
    (if notes.isEmpty then [] else [gutter digits]) ++ notes

/-- The text of diagnostics: drawn against the source if there is one, a line each otherwise. Drawn
lines do not end in blanks. -/
def render (options : Options) (ds : List Diagnostic) : String :=
  match options.source with
  | none => "\n".intercalate (ds.map Diagnostic.describe)
  | some source =>
    let rows := (ds.flatMap (draw source options.path)).map (Row.text options.colored)
    let lines := Text.pieces '\n' ("\n".intercalate rows).toList
    "\n".intercalate (lines.map fun line => Text.trimRight (String.ofList line))

end RecognizerModel.Report
