import UT612.Library.Transducer
import Mathlib.Logic.Function.Basic

/-!
# Dispatch

Objects of one kind at their addresses, and messages that are sent to one address each. An object
changes and gives something out only at its own messages, so what becomes of it is a function of the
messages it receives: the other objects do not matter, nor does the order of messages to different
addresses. A message to several listeners is a message to each of them in turn.
-/

namespace Dispatch

variable {ι α σ ω : Type*}

/-! ### Broadcast -/

/-- Each message to each listener. -/
def broadcast (listeners : List ι) (messages : List α) : List (ι × α) :=
  messages.flatMap fun message => listeners.map fun a => (a, message)

theorem broadcast_append (listeners : List ι) (messages messages' : List α) :
    broadcast listeners (messages ++ messages') =
      broadcast listeners messages ++ broadcast listeners messages' :=
  List.flatMap_append

theorem fst_mem_of_mem_broadcast {listeners : List ι} {messages : List α} {call : ι × α}
    (h : call ∈ broadcast listeners messages) : call.1 ∈ listeners := by
  obtain ⟨message, -, hcall⟩ := List.mem_flatMap.mp h
  obtain ⟨a, ha, rfl⟩ := List.mem_map.mp hcall
  exact ha

variable [DecidableEq ι]

/-- The messages to one address, in order. -/
def received (a : ι) (calls : List (ι × α)) : List α :=
  calls.filterMap fun call => if call.1 = a then some call.2 else none

/-- Objects that are machines of one kind. A message to an address without an object is lost. -/
def system (T : Transducer σ α ω) : Transducer (ι → Option σ) (ι × α) (ι × ω) where
  step objects call :=
    match objects call.1 with
    | none => (objects, none)
    | some s =>
        (Function.update objects call.1 (some (T.step s call.2).1),
          (T.step s call.2).2.map fun output => (call.1, output))

/-! ### What is received -/

@[simp] theorem received_nil (a : ι) : received a ([] : List (ι × α)) = [] := rfl

theorem received_append (a : ι) (calls calls' : List (ι × α)) :
    received a (calls ++ calls') = received a calls ++ received a calls' :=
  List.filterMap_append

theorem received_cons_self (a : ι) (message : α) (calls : List (ι × α)) :
    received a ((a, message) :: calls) = message :: received a calls :=
  List.filterMap_cons_some (if_pos rfl)

theorem received_cons_of_ne {a b : ι} (h : b ≠ a) (message : α) (calls : List (ι × α)) :
    received a ((b, message) :: calls) = received a calls :=
  List.filterMap_cons_none (if_neg h)

/-- One message reaches each of some different listeners once. -/
theorem received_listeners {listeners : List ι} (hnodup : listeners.Nodup) (a : ι) (message : α) :
    received a (listeners.map fun b => (b, message)) = if a ∈ listeners then [message] else [] := by
  induction listeners with
  | nil => rfl
  | cons b listeners ih =>
      obtain ⟨hb, hnodup⟩ := List.nodup_cons.mp hnodup
      rw [List.map_cons]
      by_cases hab : b = a
      · subst hab
        rw [received_cons_self, ih hnodup, if_neg hb, if_pos List.mem_cons_self]
      · rw [received_cons_of_ne hab, ih hnodup]
        simp only [List.mem_cons, Ne.symm hab, false_or]

/-- **Broadcast.** A listener receives all messages, each once and in their order. -/
theorem received_broadcast {listeners : List ι} (hnodup : listeners.Nodup) {a : ι}
    (ha : a ∈ listeners) (messages : List α) :
    received a (broadcast listeners messages) = messages := by
  induction messages with
  | nil => rfl
  | cons message messages ih =>
      have hcons : broadcast listeners (message :: messages) =
          (listeners.map fun b => (b, message)) ++ broadcast listeners messages := rfl
      rw [hcons, received_append, received_listeners hnodup, if_pos ha, ih, List.singleton_append]

theorem received_broadcast_of_notMem {listeners : List ι} {a : ι} (ha : a ∉ listeners)
    (messages : List α) : received a (broadcast listeners messages) = [] := by
  apply List.filterMap_eq_nil_iff.mpr
  intro call hcall
  have hne : call.1 ≠ a := by
    rintro rfl
    exact ha (fst_mem_of_mem_broadcast hcall)
  exact if_neg hne

/-! ### What becomes of an object -/

section System

variable (T : Transducer σ α ω) {objects : ι → Option σ}

theorem system_step_of_some {a : ι} {s : σ} (h : objects a = some s) (message : α) :
    (system T).step objects (a, message) =
      (Function.update objects a (some (T.step s message).1),
        (T.step s message).2.map fun output => (a, output)) := by
  simp only [system, h]

theorem system_step_of_none {a : ι} (h : objects a = none) (message : α) :
    (system T).step objects (a, message) = (objects, none) := by
  simp only [system, h]

/-- A message to another address leaves an object as it is. -/
theorem system_step_of_ne {a b : ι} (h : b ≠ a) (message : α) :
    ((system T).step objects (b, message)).1 a = objects a := by
  cases hb : objects b with
  | none => rw [system_step_of_none T hb]
  | some s =>
      rw [system_step_of_some T hb]
      exact Function.update_of_ne h.symm _ _

/-- Nothing is given out at an address by a message to another one. -/
theorem received_step_of_ne {a b : ι} (h : b ≠ a) (message : α) :
    received a ((system T).step objects (b, message)).2.toList = [] := by
  cases hb : objects b with
  | none =>
      rw [system_step_of_none T hb]
      rfl
  | some s =>
      rw [system_step_of_some T hb]
      cases (T.step s message).2 with
      | none => rfl
      | some output => rw [Option.map_some, Option.toList_some, received_cons_of_ne h, received_nil]

/-- **Objects.** An object after some messages is the object after those that it has received. -/
theorem finish_system (objects : ι → Option σ) (calls : List (ι × α)) (a : ι) :
    (system T).finish objects calls a =
      (objects a).map fun s => T.finish s (received a calls) := by
  induction calls generalizing objects with
  | nil =>
      rw [Transducer.finish_nil]
      cases objects a <;> rfl
  | cons call calls ih =>
      obtain ⟨b, message⟩ := call
      rw [Transducer.finish_cons, ih]
      by_cases hb : b = a
      · subst hb
        rw [received_cons_self]
        cases h : objects b with
        | none =>
            rw [system_step_of_none T h]
            simp only [h]
            rfl
        | some s =>
            rw [system_step_of_some T h]
            simp only [Function.update_self]
            rfl
      · rw [received_cons_of_ne hb, system_step_of_ne T hb]

/-- **Outputs.** What is given out at an address is what its object gives out at the messages it has
received. -/
theorem received_outputs_system (calls : List (ι × α)) {a : ι} {s : σ} (h : objects a = some s) :
    received a ((system T).outputs objects calls) = T.outputs s (received a calls) := by
  induction calls generalizing objects s with
  | nil => rfl
  | cons call calls ih =>
      obtain ⟨b, message⟩ := call
      rw [Transducer.outputs_cons, received_append]
      by_cases hb : b = a
      · subst hb
        rw [received_cons_self, Transducer.outputs_cons, system_step_of_some T h,
          ih (Function.update_self ..)]
        cases (T.step s message).2 with
        | none => rfl
        | some output => rw [Option.map_some, Option.toList_some, received_cons_self]; rfl
      · have hkeep : ((system T).step objects (b, message)).1 a = some s :=
          (system_step_of_ne T hb message).trans h
        rw [received_cons_of_ne hb, received_step_of_ne T hb, List.nil_append, ih hkeep]

/-- Nothing is given out at an address that has received nothing. -/
theorem received_outputs_system_of_nil (objects : ι → Option σ) {calls : List (ι × α)} {a : ι}
    (h : received a calls = []) : received a ((system T).outputs objects calls) = [] := by
  induction calls generalizing objects with
  | nil => rfl
  | cons call calls ih =>
      obtain ⟨b, message⟩ := call
      by_cases hb : b = a
      · subst hb
        rw [received_cons_self] at h
        exact absurd h (List.cons_ne_nil _ _)
      · rw [received_cons_of_ne hb] at h
        rw [Transducer.outputs_cons, received_append, received_step_of_ne T hb, List.nil_append, ih _ h]

end System

end Dispatch
