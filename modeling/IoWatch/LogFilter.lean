import IoWatch.LogFilter.Directive

/-!
# Log filters

A filter is a list of directives between commas. More specific directives come first, and of two
directives for the same thing the later one counts.

Directives without a span and without values of fields are kept apart from the others; one that
names fields only is kept in both lists.

## Main definitions

* `LogFilter`, `LogFilter.parse`: filters and their reading
* `LogFilter.text`, `LogFilter.verbosity`: a filter's text, and the most that it lets through
* `LogFilter.ofSetting`: the filter of a setting that may be missing or malformed
-/

namespace IoWatch

/-- A log filter. -/
structure LogFilter where
  /-- The directives that are decided without spans, the most specific first. -/
  statics : List Directive
  /-- The directives that depend on spans, the most specific first. -/
  dynamics : List Directive
  /-- The most that any directive let through, replaced ones included. -/
  greatest : Verbosity
  deriving DecidableEq

namespace LogFilter

/-- The pieces of a text between commas. -/
def pieces : List Char → List (List Char)
  | [] => [[]]
  | c :: cs =>
    if c = ',' then [] :: pieces cs
    else
      match pieces cs with
      | [] => [[c]]
      | p :: ps => (c :: p) :: ps

/-- The filter of a list of directives. -/
def ofDirectives (ds : List Directive) : LogFilter :=
  let dynamics := ds.filter Directive.isDynamic
  let statics := ds.filter (!·.isDynamic) ++ dynamics.filter Directive.isStatic
  { statics := statics.foldl (fun es d => d.insert es) []
    dynamics := dynamics.foldl (fun es d => d.insert es) []
    greatest := ds.foldl (fun v d => v.max d.verbosity) .off }

/-- The filter of a text; empty pieces are skipped. -/
def parse (text : List Char) : Option LogFilter :=
  (((pieces text).filter (· ≠ [])).mapM Directive.parse).map ofDirectives

/-- The text of a filter. -/
def text (f : LogFilter) : List Char :=
  Directive.joined ((f.statics ++ f.dynamics).map Directive.text)

/-- The most that a filter lets through. Values of fields are not known when a span begins, so a
filter that asks for one lets every span through. -/
def verbosity (f : LogFilter) : Verbosity :=
  if f.dynamics.any (·.fields.any (·.value.isSome)) then .trace else f.greatest

/-- What is let through when no filter is set: infos of the monitor. -/
def standard : LogFilter :=
  ofDirectives [⟨some (Utf8.encode "proc_io_monitor".toList), none, [], .info⟩]

/-- The filter of a setting. One that is missing, blank or malformed gives the standard filter. -/
def ofSetting (setting : Option (List Char)) : LogFilter :=
  match setting.map trimmed with
  | none => standard
  | some [] => standard
  | some text => (parse text).getD standard

end LogFilter

end IoWatch
