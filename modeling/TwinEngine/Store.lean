import TwinEngine.Instance

/-!
Contract: stores, which own instances.

Owns: the instances of a store with its limits and its counts of live frames and nested entries.

Does not own: making instances (`Instantiation`), or running them (`World`).

Instances are numbered in the order in which they are made.
-/

namespace TwinEngine

/-- Bounds on nesting: frames that are live at once, and entries into the store from running code.
-/
structure StoreLimits where
  callDepth : Nat := 20000
  reentry : Nat := 200
deriving DecidableEq, Repr, Inhabited

/-- A store. `depth` counts the frames that are live, `reentry` the entries that have not ended, and
`interrupt` is the request to stop what is running. -/
structure Store where
  instances : Array Instance := #[]
  interrupt : Bool := false
  limits : StoreLimits := {}
  depth : Nat := 0
  reentry : Nat := 0
deriving Inhabited

namespace Store

def withLimits (limits : StoreLimits) : Store := { limits }

@[inline] def look {α : Type} (store : Store) (id : Nat) (read : Instance → Except Trap α) :
    Except Trap α :=
  match store.instances[id]? with
  | some live => read live
  | none => .error (.host (.unknownInstance id))

/-- Take an instance out of its place, to which it is put back once it has been changed. -/
@[noinline] def detach (instances : Array Instance) (id : Nat) : Instance × Array Instance :=
  (instances.getD id default, instances.setIfInBounds id default)

@[inline] def access {α : Type} (store : Store) (id : Nat) (effect : Effect Instance α) :
    Except Trap α × Store :=
  if id < store.instances.size then
    match store with
    | { instances, interrupt, limits, depth, reentry } =>
      match detach instances id with
      | (live, others) =>
        match effect live with
        | (result, live) =>
          (result, ⟨others.setIfInBounds id live, interrupt, limits, depth, reentry⟩)
  else (.error (.host (.unknownInstance id)), store)

/-- Answer a pending request to stop, which is then no longer pending. -/
def takeInterrupt (store : Store) : Bool × Store :=
  (store.interrupt, { store with interrupt := false })

def functionType (store : Store) (reference : FuncRef) : Except Trap FunctionType :=
  let type := (store.instances[reference.owner.toNat]?).bind fun live =>
    live.source.functionType reference.index.toNat
  match type with
  | some type => .ok type
  | none => .error (.unknownFunction reference.index.toNat)

def truncate (store : Store) (count : Nat) : Store :=
  { store with instances := store.instances.take count }

def exported (store : Store) (id : Nat) (name : String) : Except Error Nat :=
  match store.instances[id]? with
  | none => .error (.link (.unknownInstance id))
  | some live =>
    match live.source.exportedFunction name with
    | some function => .ok function
    | none => .error (.link (.noExportedFunction name))

end Store

def kindsMatch (kinds : List ValueKind) (values : List Value) : Bool :=
  kinds == values.map Value.kind

end TwinEngine
