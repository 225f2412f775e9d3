import SignedMessaging.Value.Basic

/-!
# Channels

A connection has five channels, each with a port of its own.
-/

namespace SignedMessaging

/-- A channel of a connection. -/
inductive Channel where
  | shell | iopub | stdin | control | heartbeat
deriving DecidableEq, Repr

namespace Channel

/-- All channels in the order of their ports. -/
def all : List Channel := [.shell, .iopub, .stdin, .control, .heartbeat]

/-- The name of a channel. -/
def name : Channel → String
  | .shell => "shell"
  | .iopub => "iopub"
  | .stdin => "stdin"
  | .control => "control"
  | .heartbeat => "hb"

/-- The member of a connection file with a channel's port. -/
def portName (channel : Channel) : String := channel.name ++ "_port"

/-- The channel that a value names. -/
def ofValue? (v : Value) : Option Channel :=
  v.text?.bind fun s => all.find? fun channel => channel.name == s

/-- Every channel stands in the list. -/
theorem mem_all (channel : Channel) : channel ∈ all := by
  cases channel <;> simp [all]

/-- A value names a channel exactly when it is the text of that name. -/
theorem ofValue?_eq_some_iff {v : Value} {channel : Channel} :
    ofValue? v = some channel ↔ v = .text channel.name := by
  constructor
  · intro h
    obtain ⟨s, hs, hfind⟩ := Option.bind_eq_some_iff.1 h
    have hname := List.find?_some hfind
    rw [Value.text?_eq_some_iff.1 hs, ← eq_of_beq hname]
  · rintro rfl
    cases channel <;> rfl

end Channel

end SignedMessaging
