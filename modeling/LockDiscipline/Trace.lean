import LockDiscipline.Source.Span
/-!
# What an analysis tells about its course

The events that the stages of an analysis report besides their results, with the texts under which
they are logged. They are data: an analysis returns its events in order, and only the outermost
layer decides what to do with them.
-/

namespace LockDiscipline

/-- How detailed an event is. -/
inductive TraceLevel where
  | debug | trace
deriving DecidableEq, Repr, Inhabited

/-- A step of an analysis. -/
inductive TraceEvent where
  | parsed (types errors : Nat)
  | supertypeUnknown (name : String)
  | resolved (classes symbols references errors : Nat)
  | classSkipped (name : String)
  | unitsFound (classes bodies : Nat)
  | rulesSkipped (file : String) (errors : Nat)
  | ruleDisabled (id : String)
  | methodEntered (name : String)
  | initializerEntered
  | lambdaEntered
  | methodUnknown (name : String)
  | methodGuardSkipped (method reason : String)
  | operandUnbound (reason : String)
  | releaseIgnored (method : String)
  | locksReleased (locks : String)
  | accessSkipped (member reason : String)
  | accessChecked (member required held : String)
  | lockHeld (required : String) (span : String)
  | guardBound (guard lock : String)
deriving DecidableEq, Repr, Inhabited

namespace TraceEvent

/-- How detailed an event is. -/
def level : TraceEvent → TraceLevel
  | .releaseIgnored _ | .locksReleased _ | .accessChecked .. | .lockHeld .. | .guardBound .. =>
      .trace
  | _ => .debug

/-- The text under which an event is logged. -/
def text : TraceEvent → String
  | .parsed types errors => s!"parsed {types} top-level types ({errors} errors)"
  | .supertypeUnknown name => "supertype " ++ name ++ " is not declared in this unit"
  | .resolved classes symbols references errors =>
      s!"resolved {classes} classes: {symbols} symbols, {references} references, {errors} errors"
  | .classSkipped name => "class " ++ name ++ " has no symbol, skipping"
  | .unitsFound classes bodies => s!"found {classes} classes and {bodies} analysis units"
  | .rulesSkipped file errors => file ++ s!": skipping rules after {errors} parse errors"
  | .ruleDisabled id => "rule " ++ id ++ " disabled"
  | .methodEntered name => "analyzing method " ++ name
  | .initializerEntered => "analyzing initializer block"
  | .lambdaEntered => "analyzing lambda body"
  | .methodUnknown name => "method " ++ name ++ " has no symbol"
  | .methodGuardSkipped method reason => "skipping guard of " ++ method ++ ": " ++ reason
  | .operandUnbound reason => "synchronized operand not bound: " ++ reason
  | .releaseIgnored method => "ignoring " ++ method ++ "() on an unbindable receiver"
  | .locksReleased locks => "finally releases " ++ locks
  | .accessSkipped member reason => "skipping access to " ++ member ++ ": " ++ reason
  | .accessChecked member required held =>
      member ++ " requires " ++ required ++ ", holding " ++ held
  | .lockHeld required span => required ++ " held at " ++ span
  | .guardBound guard lock => "guard \"" ++ guard ++ "\" binds to " ++ lock

end TraceEvent
end LockDiscipline
