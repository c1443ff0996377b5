import EndpointTrace.Source.Position
import EndpointTrace.Timing.Guard

/-!
# Callables and oracles

A callable is known by its name, the context that qualifies it (as a rule its
enclosing type) and the place of its name.  Files are compared as paths, so two
spellings of one file give one identity.

An oracle answers which callables stand at a place and what a callable calls.  Its
answers take time and may fail, and they may depend on a state that it carries from
one question to the next.
-/

namespace EndpointTrace

structure Identity where
  name : String
  context : String
  location : Location
  deriving Repr, Inhabited

namespace Identity

/-- What two identities share exactly when they are the same. -/
abbrev Key := String × String × List PathComponent × Position

def key (identity : Identity) : Key :=
  (identity.name, identity.context, identity.location.file.components,
    identity.location.position)

def same (a b : Identity) : Bool :=
  a.key == b.key

theorem same_iff {a b : Identity} : a.same b = true ↔ a.key = b.key := by
  simp [same]

end Identity

structure OutgoingCall where
  callee : Identity
  sites : List Range
  deriving Repr, Inhabited

structure Oracle (σ : Type) where
  prepare : FilePath → Position → σ → Call (List Identity) × σ
  outgoing : Identity → σ → Call (List OutgoingCall) × σ

def Oracle.fixed (prepare : FilePath → Position → Call (List Identity))
    (outgoing : Identity → Call (List OutgoingCall)) : Oracle Unit where
  prepare file position _ := (prepare file position, ())
  outgoing identity _ := (outgoing identity, ())

end EndpointTrace
