import TwinEngine.Error

/-!
Contract: the stack of value kinds that the analysis of a body keeps.

Owns: the stack itself, the stacks saved for second arms of conditionals, the open scopes, and the
operations on them.

Lists have the top of the stack and the innermost scope first. An operation that fails may still
have taken away what it looked at: a failed `pop` has removed the kind, a failed `exit` the scope.
-/

namespace TwinEngine

/-- An open scope: the depth of the stack when it was entered, its parameters included, their
number, and the stack that the scope leaves behind. -/
structure OpenScope where
  id : Scope
  depth : Nat
  params : Nat
  restore : List ValueKind
deriving DecidableEq, Repr

structure TypeStack where
  live : List ValueKind
  saved : List (List ValueKind)
  scopes : List OpenScope
deriving DecidableEq, Repr

namespace TypeStack

def empty : TypeStack := ⟨[], [], []⟩

def types (stack : TypeStack) : List ValueKind := stack.live.reverse

def length (stack : TypeStack) : Nat := stack.live.length

def isEmpty (stack : TypeStack) : Bool := stack.live.isEmpty

def scopeCount (stack : TypeStack) : Nat := stack.scopes.length

/-- The outcome of an operation, with the stack that it leaves. -/
abbrev Outcome (α : Type) := Except Error α × TypeStack

def push (stack : TypeStack) (kind : ValueKind) : TypeStack :=
  { stack with live := kind :: stack.live }

def pop (stack : TypeStack) (expected : ValueKind) : Outcome Unit :=
  match stack.live with
  | [] => (.error (.typeMismatch expected none), stack)
  | kind :: rest =>
    (if kind = expected then .ok () else .error (.typeMismatch expected (some kind)),
      { stack with live := rest })

def popAny (stack : TypeStack) : Outcome ValueKind :=
  match stack.live with
  | [] => (.error (.internal .emptyPop), stack)
  | kind :: rest => (.ok kind, { stack with live := rest })

def peek (stack : TypeStack) : Except Error ValueKind :=
  match stack.live with
  | [] => .error (.internal .emptyPeek)
  | kind :: _ => .ok kind

def enter (stack : TypeStack) (id : Scope) (type : FunctionType) : Outcome Unit :=
  if stack.live.length < type.params.length then
    (.error (.internal (.blockParameters id)), stack)
  else
    let scope : OpenScope :=
      { id := id
        depth := stack.live.length
        params := type.params.length
        restore := type.results.reverse ++ stack.live.drop type.params.length }
    (.ok (), { stack with scopes := scope :: stack.scopes })

def innermost (stack : TypeStack) : Option Scope :=
  stack.scopes.head?.map OpenScope.id

/-- Close the innermost scope, which must be the given one. -/
def exit (stack : TypeStack) (id : Scope) : Outcome Unit :=
  (if stack.innermost = some id then .ok ()
    else .error (.internal (.wrongExit id stack.innermost)),
    { stack with scopes := stack.scopes.tail })

def scope (stack : TypeStack) (id : Scope) : Except Error OpenScope :=
  match stack.scopes.find? (·.id == id) with
  | some scope => .ok scope
  | none => .error (.internal (.scopeNotOpen id))

def depthAt (stack : TypeStack) (id : Scope) : Except Error Nat :=
  (stack.scope id).map OpenScope.depth

def paramsOf (stack : TypeStack) (id : Scope) : Except Error Nat :=
  (stack.scope id).map OpenScope.params

/-- Save the stack for the second arm of a conditional. -/
def snapshot (stack : TypeStack) : TypeStack :=
  { stack with saved := stack.live :: stack.saved }

def unsnapshot (stack : TypeStack) : Outcome Unit :=
  match stack.saved with
  | [] => (.error (.internal .noSnapshot), stack)
  | live :: saved => (.ok (), { stack with live := live, saved := saved })

/-- Set the stack to what the innermost scope leaves behind. -/
def restore (stack : TypeStack) (id : Scope) : Outcome Unit :=
  match stack.scopes with
  | [] => (.error (.internal (.wrongRestore id none)), stack)
  | scope :: _ =>
    if scope.id = id then (.ok (), { stack with live := scope.restore })
    else (.error (.internal (.wrongRestore id (some scope.id))), stack)

/-- The end of a body: nothing saved, only the scope of the body open, nothing on the stack. -/
def verifyEmpty (stack : TypeStack) : Except Error Unit :=
  if stack.saved.length ≠ 0 then .error (.internal (.openSnapshots stack.saved.length))
  else if stack.scopes.map OpenScope.id ≠ [.function] then
    .error (.internal (.unbalancedScopes (stack.scopes.map OpenScope.id).reverse))
  else if stack.live ≠ [] then .error (.internal (.leftOnStack stack.types))
  else .ok ()

/-! ## Operations as data -/

inductive Operation where
  | push (kind : ValueKind)
  | pop (expected : ValueKind)
  | popAny
  | peek
  | enter (id : Scope) (type : FunctionType)
  | exit (id : Scope)
  | depth (id : Scope)
  | params (id : Scope)
  | snapshot
  | unsnapshot
  | restore (id : Scope)
  | verify
deriving DecidableEq, Repr

inductive Answer where
  | done
  | kind (kind : ValueKind)
  | number (value : Nat)
deriving DecidableEq, Repr

def apply (stack : TypeStack) : Operation → Outcome Answer
  | .push kind => (.ok .done, stack.push kind)
  | .pop expected => done (stack.pop expected)
  | .popAny => let (outcome, stack) := stack.popAny; (outcome.map .kind, stack)
  | .peek => (stack.peek.map .kind, stack)
  | .enter id type => done (stack.enter id type)
  | .exit id => done (stack.exit id)
  | .depth id => ((stack.depthAt id).map .number, stack)
  | .params id => ((stack.paramsOf id).map .number, stack)
  | .snapshot => (.ok .done, stack.snapshot)
  | .unsnapshot => done stack.unsnapshot
  | .restore id => done (stack.restore id)
  | .verify => (stack.verifyEmpty.map fun _ => .done, stack)
where
  done (outcome : Outcome Unit) : Outcome Answer :=
    (outcome.1.map fun _ => .done, outcome.2)

end TypeStack

end TwinEngine
