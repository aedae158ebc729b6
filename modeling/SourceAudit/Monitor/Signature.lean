import SourceAudit.Value.Access

/-!
# Signatures

The parameters of a function, and how the arguments of a call are given to them: first by position,
then by name, then by default.
-/

namespace SourceAudit.Monitor

structure Parameter where
  name : String
  fallback : Option Value := none

structure Signature where
  title : String
  positional : List Parameter
  collects : Bool := false
  named : List Parameter := []
  collectsNamed : Bool := false

structure Arguments where
  values : List (String × Value)
  rest : List Value
  restNamed : List (String × Value)

namespace Arguments

def value (args : Arguments) (nm : String) : Value :=
  (Value.field? nm args.values).getD .null

end Arguments

namespace Signature

def enumerate : List String → String
  | [] => ""
  | [a] => a
  | [a, b] => a ++ " and " ++ b
  | [a, b, c] => a ++ ", " ++ b ++ ", and " ++ c
  | a :: tl => a ++ ", " ++ enumerate tl

def plural (n : Nat) : String :=
  if n = 1 then "" else "s"

def known (sig : Signature) (nm : String) : Bool :=
  (sig.positional ++ sig.named).any fun param => param.name == nm

def placeNamed (signature : Signature) (args : Arguments) :
    List (String × Value) → Outcome Arguments
  | [] => .ok args
  | (name, v) :: tl =>
    if signature.known name then
      if (Value.field? name args.values).isSome then
        .error (.mistyped s!"{signature.title}() got multiple values for argument '{name}'")
      else
        placeNamed signature
          { args with values := args.values ++ [(name, v)] } tl
    else if signature.collectsNamed then
      placeNamed signature
        { args with restNamed := args.restNamed ++ [(name, v)] } tl
    else
      .error (.mistyped s!"{signature.title}() got an unexpected keyword argument '{name}'")

def tooMany (signature : Signature) (given : Nat) (args : Arguments) : Fault :=
  let total := signature.positional.length
  let optional := (signature.positional.filter fun param => param.fallback.isSome).length
  let takes :=
    if optional = 0 then s!"{total} positional argument{plural total}"
    else s!"from {total - optional} to {total} positional arguments"
  let named := (signature.named.filter fun param =>
    (Value.field? param.name args.values).isSome).length
  let extra :=
    if named = 0 then ""
    else s!" positional argument{plural given} (and {named} keyword-only argument{plural named})"
  let verb := if given = 1 ∧ named = 0 then "was" else "were"
  .mistyped s!"{signature.title}() takes {takes} but {given}{extra} {verb} given"

def missing (params : List Parameter) (args : Arguments) : List String :=
  (params.filter fun param =>
    param.fallback.isNone && (Value.field? param.name args.values).isNone).map (·.name)

def tooFew (signature : Signature) (kind : String) (nms : List String) : Fault :=
  let quoted := enumerate (nms.map fun name => s!"'{name}'")
  let count := nms.length
  .mistyped
    s!"{signature.title}() missing {count} required {kind} argument{plural count}: {quoted}"

def bind (signature : Signature) (given : List Value) (named : List (String × Value)) :
    Outcome Arguments := do
  let total := signature.positional.length
  let start : Arguments :=
    { values := (signature.positional.map (·.name)).zip given
      rest := if signature.collects then given.drop total else []
      restNamed := [] }
  let placed ← signature.placeNamed start named
  if given.length > total && !signature.collects then
    throw (signature.tooMany given.length placed)
  let lacking := missing signature.positional placed
  if !lacking.isEmpty then throw (signature.tooFew "positional" lacking)
  let lacking := missing signature.named placed
  if !lacking.isEmpty then throw (signature.tooFew "keyword-only" lacking)
  let defaults := (signature.positional ++ signature.named).filterMap fun param =>
    if (Value.field? param.name placed.values).isSome then none
    else param.fallback.map fun v => (param.name, v)
  return { placed with values := placed.values ++ defaults }

end Signature

end SourceAudit.Monitor
