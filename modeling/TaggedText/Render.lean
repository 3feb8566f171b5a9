import TaggedText.Compose
import TaggedText.Document.Reader
import TaggedText.TagSet
import TaggedText.Target
import TaggedText.Template.Reader

/-!
# Rendering a source

From a source and a tag set to output, in one step.  `RenderOptions` says what to render to, how,
and with which tags; the mode matters for markup only, as plain text is always composed first.

What can go wrong is that the source cannot be read or that the engine raises a fault
(`RenderFault`), and never both.  `renderDocumentWith` and `renderWith` leave open what fills in
templates, and `render` is the same with the library's own.
-/

namespace TaggedText

/-- What to render to: markup, or the text alone. -/
inductive OutputTarget where
  | html
  | text
  deriving DecidableEq, Repr, Inhabited

/-- The name by which resolvers know a target. -/
def OutputTarget.name : OutputTarget → String
  | html => "html"
  | text => "text"

/-- How tags are rendered: as their resolvers propose, or composed into one command first. -/
inductive Mode where
  | dynamic
  | static
  deriving DecidableEq, Repr, Inhabited

/-- **What to render to, how, and with which tags.**  The mode matters for markup only; plain text is
always composed. -/
structure RenderOptions where
  tags : TagSet := TagSet.builtin
  target : OutputTarget := .html
  mode : Mode := .dynamic
  policy : Policy := .lenient
  reader : ReaderOptions := {}

/-- Why there is no output. -/
inductive RenderFault where
  | malformed (diagnostics : List Diagnostic)
  | faulted (fault : Fault)
  deriving Repr

/-- The reason in words. -/
def RenderFault.message : RenderFault → String
  | malformed diagnostics =>
    "parse errors: " ++ String.intercalate "; " (diagnostics.map Diagnostic.message)
  | faulted fault => "engine error: " ++ fault.message

/-- Renders a document with the help of a template engine. -/
def renderDocumentWith (templates : TemplateEngine) (options : RenderOptions)
    (document : Document) : Except Fault String :=
  let resolvers := options.tags.resolvers
  let composed := document.compose resolvers options.target.name
  match options.target, options.mode with
  | .html, .dynamic => (Printer.html templates resolvers options.policy).renderDocument document
  | .html, .static => (Printer.html templates resolvers options.policy).run [composed]
  | .text, _ => (Printer.text resolvers options.policy).run [composed]

/-- Renders a source with the help of a template engine. -/
def renderWith (templates : TemplateEngine) (options : RenderOptions) (source : String) :
    Except RenderFault String :=
  match Document.read options.reader source with
  | .error diagnostics => .error (.malformed diagnostics)
  | .ok document =>
    match renderDocumentWith templates options document with
    | .error fault => .error (.faulted fault)
    | .ok output => .ok output

/-- **Renders a source**, with the library's own templates. -/
def render (options : RenderOptions) (source : String) : Except RenderFault String :=
  renderWith Template.engine options source

end TaggedText
