import UT612.Library.Dispatch
import UT612.Proof.Parser.Step
import UT612.Model.Source

/-!
# Calls and messages

All that the byte source does to its sinks and on the streams is a list of events, the bytes that it
passes to a sink and the messages of its own. Performing the events is, on a working clock, a run of
a machine that has the sinks as its objects and gives out what is printed: the cuts of the parsers
among them, each with the address of its parser, and the messages.
-/

namespace UT612

open Dispatch

/-! ### One byte -/

theorem UT612ByteSource.nodup (source : UT612ByteSource) : source.byteSinks.Nodup :=
  source.ascending.imp Nat.ne_of_lt

/-- A sink after a byte. -/
def ByteSink.after (byte : UInt8) : ByteSink → ByteSink
  | .parser p => .parser (framer.step p byte).1
  | .file f => .file (f.processByte byte)

/-- What a sink prints at a byte. -/
def ByteSink.print (clock : Clock) (byte : UInt8) (con : Console) : ByteSink → Console
  | .parser p => (framer.step p byte).2.toList.foldl (Console.emit clock p.doTimestamp) con
  | .file _ => con

theorem sinkProcessByte_eq (clock : Clock) (byte : UInt8) (con : Console) (sink : ByteSink) :
    sink.processByte clock.now byte con = .ok (sink.after byte, sink.print clock byte con) := by
  cases sink with
  | parser p =>
      rw [ByteSink.processByte, processByte_eq]
      rfl
  | file f => rfl

/-- The objects after a byte to the sinks at the given addresses. -/
def Heap.after (byte : UInt8) (sinks : List Nat) (heap : Heap) (a : Nat) : Option ByteSink :=
  if a ∈ sinks then (heap a).map (ByteSink.after byte) else heap a

/-- **One byte.** Each sink gets the byte once, and the parsers among them print in the order of
their addresses. -/
theorem notifyByteSinks_eq (clock : Clock) (byte : UInt8) {sinks : List Nat} (hnodup : sinks.Nodup)
    {heap : Heap} (hsinks : ∀ a ∈ sinks, heap a ≠ none) (con : Console) :
    notifyByteSinks clock.now byte sinks heap con =
      .ok (heap.after byte sinks,
        (sinks.filterMap heap).foldl (fun con sink => sink.print clock byte con) con) := by
  induction sinks generalizing heap con with
  | nil => rfl
  | cons a sinks ih =>
      obtain ⟨ha, hnodup⟩ := List.nodup_cons.mp hnodup
      obtain ⟨sink, hsink⟩ := Option.ne_none_iff_exists'.mp (hsinks a List.mem_cons_self)
      have hother : ∀ b ∈ sinks, Function.update heap a (some (sink.after byte)) b = heap b := by
        intro b hb
        apply Function.update_of_ne
        intro heq
        exact ha (heq ▸ hb)
      have hsome : ∀ b ∈ sinks, Function.update heap a (some (sink.after byte)) b ≠ none := by
        intro b hb
        rw [hother b hb]
        exact hsinks b (List.mem_cons_of_mem a hb)
      have hheap : Heap.after byte sinks (Function.update heap a (some (sink.after byte))) =
          heap.after byte (a :: sinks) := by
        funext b
        by_cases hb : b = a
        · subst hb
          simp [Heap.after, ha, hsink]
        · simp [Heap.after, hb]
      have hprint : sinks.filterMap (Function.update heap a (some (sink.after byte))) =
          sinks.filterMap heap := List.filterMap_congr hother
      rw [notifyByteSinks, hsink]
      simp only [sinkProcessByte_eq]
      refine (ih hnodup hsome _).trans ?_
      rw [hheap, hprint, List.filterMap_cons, hsink, List.foldl_cons]

/-! ### The sinks as machines -/

/-- A sink, with the cuts of a parser and whether it prints the time with them. -/
def sinkMachine : Transducer ByteSink UInt8 (Bool × Cut) where
  step
    | .parser p, byte =>
        (.parser (framer.step p byte).1, (framer.step p byte).2.map fun c => (p.doTimestamp, c))
    | .file f, byte => (.file (f.processByte byte), none)

theorem sinkMachine_step_fst (sink : ByteSink) (byte : UInt8) :
    (sinkMachine.step sink byte).1 = sink.after byte := by
  cases sink <;> rfl

theorem ByteSink.print_eq (clock : Clock) (byte : UInt8) (con : Console) (sink : ByteSink) :
    sink.print clock byte con =
      (sinkMachine.step sink byte).2.toList.foldl
        (fun con output => con.emit clock output.1 output.2) con := by
  cases sink with
  | parser p =>
      simp only [ByteSink.print, sinkMachine]
      cases (framer.step p byte).2 <;> rfl
  | file f => rfl

theorem finish_parserSink (p : UT612ByteStreamParser) (bytes : List UInt8) :
    sinkMachine.finish (.parser p) bytes = .parser (framer.finish p bytes) := by
  induction bytes generalizing p with
  | nil => rfl
  | cons byte bytes ih => exact ih (framer.step p byte).1

theorem finish_fileSink (f : ByteStreamToFile) (bytes : List UInt8) :
    sinkMachine.finish (.file f) bytes = .file ⟨f.written ++ bytes⟩ := by
  induction bytes generalizing f with
  | nil =>
      rw [List.append_nil]
      rfl
  | cons byte bytes ih =>
      refine (ih (f.processByte byte)).trans ?_
      rw [ByteStreamToFile.processByte, List.append_assoc, List.singleton_append]

theorem outputs_parserSink (p : UT612ByteStreamParser) (bytes : List UInt8) :
    sinkMachine.outputs (.parser p) bytes =
      (framer.outputs p bytes).map fun c => (p.doTimestamp, c) := by
  induction bytes generalizing p with
  | nil => rfl
  | cons byte bytes ih =>
      have hstep : sinkMachine.step (.parser p) byte = (.parser (framer.step p byte).1,
        (framer.step p byte).2.map fun c => (p.doTimestamp, c)) := rfl
      rw [Transducer.outputs_cons, Transducer.outputs_cons, hstep, ih, framer_step_doTimestamp,
        List.map_append, Option.toList_map]

theorem outputs_fileSink (f : ByteStreamToFile) (bytes : List UInt8) :
    sinkMachine.outputs (.file f) bytes = [] := by
  induction bytes generalizing f with
  | nil => rfl
  | cons byte bytes ih => exact ih (f.processByte byte)

/-! ### Events -/

inductive RunEvent where
  | message (text : Text)
  | call (sink : Nat) (byte : UInt8)

/-- An event, as the source performs it. -/
def RunEvent.perform (now : Nat → TimeOfDay) :
    Heap × Console → RunEvent → Except Fault (Heap × Console)
  | (heap, con), .message text => .ok (heap, con.err text)
  | (heap, con), .call a byte =>
      match heap a with
      | none => .error .undefinedRead
      | some sink => do
          let (sink, con) ← sink.processByte now byte con
          return (Function.update heap a (some sink), con)

/-- The calls among some events. -/
def calls (events : List RunEvent) : List (Nat × UInt8) :=
  events.filterMap fun
    | .message _ => none
    | .call a byte => some (a, byte)

theorem calls_append (events events' : List RunEvent) :
    calls (events ++ events') = calls events ++ calls events' := List.filterMap_append

/-- The events that are calls only. -/
def ofCalls (calls : List (Nat × UInt8)) : List RunEvent :=
  calls.map fun call => .call call.1 call.2

@[simp] theorem calls_ofCalls (cs : List (Nat × UInt8)) : calls (ofCalls cs) = cs := by
  simp [calls, ofCalls, List.filterMap_map]

theorem notifyByteSinks_eq_foldlM (now : Nat → TimeOfDay) (byte : UInt8) (sinks : List Nat)
    (heap : Heap) (con : Console) :
    notifyByteSinks now byte sinks heap con =
      (ofCalls (sinks.map fun a => (a, byte))).foldlM (RunEvent.perform now) (heap, con) := by
  induction sinks generalizing heap con with
  | nil => rfl
  | cons a sinks ih =>
      have hcons : ofCalls ((a :: sinks).map fun a => (a, byte)) =
          .call a byte :: ofCalls (sinks.map fun a => (a, byte)) := rfl
      rw [hcons, List.foldlM_cons, notifyByteSinks, RunEvent.perform]
      cases heap a with
      | none => rfl
      | some sink =>
          simp only [ih, bind_assoc, pure_bind]

theorem notifyAllByteSinks_eq_foldlM (now : Nat → TimeOfDay) (byte : UInt8)
    (source : UT612ByteSource) (heap : Heap) (con : Console) :
    notifyAllByteSinks now byte source heap con =
      (ofCalls (broadcast source.byteSinks [byte])).foldlM (RunEvent.perform now) (heap, con) := by
  rw [notifyAllByteSinks, notifyByteSinks_eq_foldlM, broadcast, List.flatMap_singleton]

theorem ofCalls_broadcast_cons (sinks : List Nat) (byte : UInt8) (bytes : List UInt8) :
    ofCalls (broadcast sinks (byte :: bytes)) =
      ofCalls (broadcast sinks [byte]) ++ ofCalls (broadcast sinks bytes) := by
  simp [ofCalls, broadcast]

/-- The bytes delivered are calls, each byte to each sink. -/
theorem deliver_eq_foldlM (now : Nat → TimeOfDay) (source : UT612ByteSource) (bytes : List UInt8)
    (heap : Heap) (con : Console) :
    deliver now source bytes heap con =
      (ofCalls (broadcast source.byteSinks bytes)).foldlM (RunEvent.perform now) (heap, con) := by
  induction bytes generalizing heap con with
  | nil => rfl
  | cons byte bytes ih =>
      rw [ofCalls_broadcast_cons, List.foldlM_append, deliver, notifyAllByteSinks_eq_foldlM]
      simp only [ih]

/-! ### Events as a run -/

/-- What an event makes the process print. -/
inductive RunOutput where
  | message (text : Text)
  | cut (sink : Nat) (doTimestamp : Bool) (c : Cut)

def RunOutput.print (clock : Clock) (con : Console) : RunOutput → Console
  | .message text => con.err text
  | .cut _ doTimestamp c => con.emit clock doTimestamp c

/-- The events without the printing. -/
def runner : Transducer Heap RunEvent RunOutput where
  step heap
    | .message text => (heap, some (.message text))
    | .call a byte =>
        (((system sinkMachine).step heap (a, byte)).1,
          ((system sinkMachine).step heap (a, byte)).2.map fun output =>
            .cut output.1 output.2.1 output.2.2)

/-- The cuts among some outputs. -/
def cuts (outputs : List RunOutput) : List (Nat × Bool × Cut) :=
  outputs.filterMap fun
    | .message _ => none
    | .cut sink doTimestamp c => some (sink, doTimestamp, c)

theorem finish_runner (heap : Heap) (events : List RunEvent) :
    runner.finish heap events = (system sinkMachine).finish heap (calls events) := by
  induction events generalizing heap with
  | nil => rfl
  | cons event events ih =>
      cases event with
      | message text => exact ih heap
      | call a byte => exact ih ((system sinkMachine).step heap (a, byte)).1

theorem cuts_outputs_runner (heap : Heap) (events : List RunEvent) :
    cuts (runner.outputs heap events) = (system sinkMachine).outputs heap (calls events) := by
  induction events generalizing heap with
  | nil => rfl
  | cons event events ih =>
      cases event with
      | message text => exact ih heap
      | call a byte =>
          have hcalls : calls (.call a byte :: events) = (a, byte) :: calls events := rfl
          rw [Transducer.outputs_cons, hcalls, Transducer.outputs_cons, cuts, List.filterMap_append]
          refine congrArg₂ (· ++ ·) ?_ (ih _)
          simp only [runner]
          cases ((system sinkMachine).step heap (a, byte)).2 <;> rfl

theorem perform_eq (clock : Clock) {heap : Heap} {event : RunEvent}
    (h : ∀ call ∈ calls [event], heap call.1 ≠ none) (con : Console) :
    event.perform clock.now (heap, con) =
      .ok ((runner.step heap event).1,
        (runner.step heap event).2.toList.foldl (RunOutput.print clock) con) := by
  cases event with
  | message text => rfl
  | call a byte =>
      obtain ⟨sink, hsink⟩ :=
        Option.ne_none_iff_exists'.mp (h (a, byte) (List.mem_singleton_self _))
      rw [RunEvent.perform, hsink]
      simp only [sinkProcessByte_eq, ByteSink.print_eq, ← sinkMachine_step_fst, runner,
        system_step_of_some sinkMachine hsink]
      cases (sinkMachine.step sink byte).2 <;> rfl

/-- The sinks stay where they are. -/
theorem finish_runner_ne_none {heap : Heap} {a : Nat} (h : heap a ≠ none)
    (events : List RunEvent) : runner.finish heap events a ≠ none := by
  rw [finish_runner, finish_system]
  exact fun hnone => h (Option.map_eq_none_iff.mp hnone)

/-- **Performing events** on a working clock is a run, with its outputs printed in order. -/
theorem foldlM_perform_eq (clock : Clock) (events : List RunEvent) {heap : Heap}
    (h : ∀ call ∈ calls events, heap call.1 ≠ none) (con : Console) :
    events.foldlM (RunEvent.perform clock.now) (heap, con) =
      .ok (runner.finish heap events,
        (runner.outputs heap events).foldl (RunOutput.print clock) con) := by
  induction events generalizing heap con with
  | nil => rfl
  | cons event events ih =>
      have hcalls : calls (event :: events) = calls [event] ++ calls events :=
        calls_append [event] events
      have hevent : ∀ call ∈ calls [event], heap call.1 ≠ none := by
        intro call hcall
        apply h call
        rw [hcalls]
        exact List.mem_append_left _ hcall
      have hevents : ∀ call ∈ calls events, (runner.step heap event).1 call.1 ≠ none := by
        intro call hcall
        have hsink : heap call.1 ≠ none := by
          apply h call
          rw [hcalls]
          exact List.mem_append_right _ hcall
        exact finish_runner_ne_none hsink [event]
      rw [List.foldlM_cons, perform_eq clock hevent, Transducer.outputs_cons, List.foldl_append]
      exact ih hevents _

theorem foldlM_broadcast_eq (clock : Clock) {sinks : List Nat} {heap : Heap}
    (hsinks : ∀ a ∈ sinks, heap a ≠ none) (bytes : List UInt8) (con : Console) :
    (ofCalls (broadcast sinks bytes)).foldlM (RunEvent.perform clock.now) (heap, con) =
      .ok (runner.finish heap (ofCalls (broadcast sinks bytes)),
        (runner.outputs heap (ofCalls (broadcast sinks bytes))).foldl
          (RunOutput.print clock) con) := by
  apply foldlM_perform_eq
  intro call hcall
  rw [calls_ofCalls] at hcall
  exact hsinks call.1 (fst_mem_of_mem_broadcast hcall)

end UT612
