/-
  ModJanus.Basic

  The scalar types the module shares: Janus identifiers, FreeSWITCH status
  codes, and the fault that reading through a null pointer is.
-/

namespace ModJanus

/-- `janus_id_t`: the 64-bit session, handle, room and participant ids. -/
abbrev JanusId := UInt64

/-- The members of `switch_status_t` that the module returns. -/
inductive Status where
  | success
  | false
  | notFound
  | sockErr
  | notInitialized
  deriving DecidableEq, Repr

/-- What ends the process instead of returning. -/
inductive Fault where
  /-- A string the code takes for granted is a null pointer. -/
  | nullDereference
  deriving DecidableEq, Repr

/-- A pointer handed to `strcmp`, or passed on as a string that must be there. -/
def mandatory {α : Type _} : Option α → Except Fault α
  | some a => .ok a
  | none => .error .nullDereference

@[simp] theorem mandatory_some {α : Type _} (a : α) : mandatory (some a) = .ok a := rfl

@[simp] theorem mandatory_none {α : Type _} :
    mandatory (none : Option α) = .error .nullDereference := rfl

end ModJanus
