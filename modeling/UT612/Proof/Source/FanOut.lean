import UT612.Proof.Source.Reports

/-!
# Fan-out

What becomes of the bytes of framed reports, those whose first byte is the number of bytes after it.
Every registered sink receives all of them once and in their order, so that its end, and the cuts it
prints if it is a parser, depend on the bytes alone: not on how they were spread over the reports,
nor on errors and timeouts in between, nor on the other sinks and how all of them were registered.
-/

namespace UT612

open Dispatch

variable {registered : List Nat} {source : UT612ByteSource} {heap : Heap} {r : HidRead}
  {results : List HidRead}

/-! ### Registration -/

theorem mem_registerAll {a : Nat} :
    a ∈ (registerAll registered source).byteSinks ↔ a ∈ registered ∨ a ∈ source.byteSinks := by
  induction registered generalizing source with
  | nil => simp [registerAll]
  | cons b registered ih =>
      have hcons : registerAll (b :: registered) source =
          registerAll registered (registerByteSink b source) := rfl
      have hone : a ∈ (registerByteSink b source).byteSinks ↔ a = b ∨ a ∈ source.byteSinks :=
        mem_setInsert
      rw [hcons, ih, hone, List.mem_cons, or_left_comm, or_assoc]

theorem mem_registerAll_newByteSource {a : Nat} {verbose : Bool} :
    a ∈ (registerAll registered (newByteSource verbose)).byteSinks ↔ a ∈ registered := by
  rw [mem_registerAll]
  exact or_iff_left List.not_mem_nil

/-! ### Framed reports -/

/-- The first byte of a report is the number of bytes after it. -/
def HidRead.Framed (r : HidRead) : Prop :=
  ∀ length ∈ r.bytes.head?, (length.toNat : Int) = r.read - 1

instance (r : HidRead) : Decidable r.Framed := Option.decidableForallMem r.bytes.head?

theorem HidRead.Framed.fits (h : r.Framed) : r.Fits := by
  intro _ length hlength
  rw [h length hlength]

/-- The bytes of some reports, without the length bytes. -/
def payload (results : List HidRead) : List UInt8 :=
  results.flatMap fun r => r.bytes.tail

theorem HidRead.Framed.forwarded (h : r.Framed) : r.forwarded = r.bytes.tail := by
  rw [HidRead.forwarded]
  split
  · next hbytes => rw [hbytes, List.tail_nil]
  · next length payload hbytes =>
      have hread := HidRead.read_of_cons hbytes
      have hlength := h length (by simp [hbytes])
      rw [hbytes, List.tail_cons, List.take_of_length_le (by omega)]

theorem flatMap_forwarded (h : ∀ r ∈ results, r.Framed) :
    results.flatMap HidRead.forwarded = payload results :=
  List.flatMap_congr fun r hr => (h r hr).forwarded

/-- **Losslessness.** A sink receives the payload if it is registered, and nothing if it is not. -/
theorem received_calls (source : UT612ByteSource) (h : ∀ r ∈ results, r.Framed) (a : Nat) :
    received a (calls (results.flatMap (roundEvents source))) =
      if a ∈ source.byteSinks then payload results else [] := by
  rw [calls_events, flatMap_forwarded h]
  split_ifs with ha
  · exact received_broadcast source.nodup ha _
  · exact received_broadcast_of_notMem ha _

/-- **One run** over framed reports, sink by sink. -/
theorem mainLoop_sinks (clock : Clock) (hsinks : ∀ a ∈ source.byteSinks, heap a ≠ none)
    (h : ∀ r ∈ results, r.Framed) (con : Console) :
    ∃ after shown, mainLoop clock.now source results heap con =
        .ok (after, shown.foldl (RunOutput.print clock) con) ∧
      (∀ a ∉ source.byteSinks, after a = heap a ∧ received a (cuts shown) = []) ∧
      ∀ a ∈ source.byteSinks, ∀ sink, heap a = some sink →
        after a = some (sinkMachine.finish sink (payload results)) ∧
        received a (cuts shown) = sinkMachine.outputs sink (payload results) := by
  refine ⟨_, _, mainLoop_eq_ok clock hsinks (fun r hr => (h r hr).fits) con, ?_, ?_⟩
  · intro a ha
    have hnone : received a (calls (results.flatMap (roundEvents source))) = [] := by
      rw [received_calls source h, if_neg ha]
    constructor
    · rw [finish_runner, finish_system, hnone]
      exact Option.map_id'
    · rw [cuts_outputs_runner, received_outputs_system_of_nil sinkMachine heap hnone]
  · intro a ha sink hsink
    constructor
    · rw [finish_runner, finish_system, received_calls source h, if_pos ha, hsink, Option.map_some]
    · rw [cuts_outputs_runner, received_outputs_system sinkMachine _ hsink, received_calls source h,
        if_pos ha]

/-! ### What is delivered -/

/-- Two consoles that differ at most in `cerr`. -/
structure SameOutput (con con' : Console) : Prop where
  cout : con.cout = con'.cout
  clockReads : con.clockReads = con'.clockReads

/-- The messages of the source do not reach `cout`. -/
theorem SameOutput.foldl_print (clock : Clock) (shown : List RunOutput) {con con' : Console}
    (h : SameOutput con con') :
    SameOutput (shown.foldl (RunOutput.print clock) con)
      ((cuts shown).foldl (fun con output => con.emit clock output.2.1 output.2.2) con') := by
  induction shown generalizing con con' with
  | nil => exact h
  | cons output shown ih =>
      cases output with
      | message text => exact ih ⟨h.cout, h.clockReads⟩
      | cut a doTimestamp c =>
          apply ih
          constructor
          · simp only [RunOutput.print, Console.emit, h.cout, h.clockReads]
          · simp only [RunOutput.print, Console.emit, h.clockReads]

theorem sameOutput_of_cuts (clock : Clock) {shown shown' : List RunOutput}
    (h : cuts shown = cuts shown') (con : Console) :
    SameOutput (shown.foldl (RunOutput.print clock) con)
      (shown'.foldl (RunOutput.print clock) con) := by
  have hcon : SameOutput con con := ⟨rfl, rfl⟩
  have hshown := hcon.foldl_print clock shown
  have hshown' := hcon.foldl_print clock shown'
  rw [h] at hshown
  exact ⟨hshown.cout.trans hshown'.cout.symm, hshown.clockReads.trans hshown'.clockReads.symm⟩

/-- **Delivery.** The main loop over framed reports delivers their payload: the sinks end as if the
source did nothing else, and `cout` shows what it would show then. -/
theorem mainLoop_deliver (clock : Clock) (hsinks : ∀ a ∈ source.byteSinks, heap a ≠ none)
    (h : ∀ r ∈ results, r.Framed) (con : Console) :
    ∃ after con₁ con₂, mainLoop clock.now source results heap con = .ok (after, con₁) ∧
      deliver clock.now source (payload results) heap con = .ok (after, con₂) ∧
      SameOutput con₁ con₂ := by
  have hrun := mainLoop_eq_ok clock hsinks (fun r hr => (h r hr).fits) con
  have hdeliver := foldlM_broadcast_eq clock hsinks (payload results) con
  have hsame : calls (results.flatMap (roundEvents source)) =
      calls (ofCalls (broadcast source.byteSinks (payload results))) := by
    rw [calls_events, flatMap_forwarded h, calls_ofCalls]
  rw [← deliver_eq_foldlM, finish_runner, ← hsame, ← finish_runner] at hdeliver
  refine ⟨_, _, _, hrun, hdeliver, sameOutput_of_cuts clock ?_ con⟩
  rw [cuts_outputs_runner, cuts_outputs_runner, hsame]

/-! ### Two runs -/

/-- A sink is left by a run as some bytes leave it, and has printed the cuts that they make. -/
structure Processed (bytes : List UInt8) (heap after : Heap) (shown : List RunOutput) (a : Nat) :
    Prop where
  parser : ∀ p, heap a = some (.parser p) →
    after a = some (.parser (framer.finish p bytes)) ∧
    received a (cuts shown) = (framer.outputs p bytes).map fun c => (p.doTimestamp, c)
  file : ∀ f, heap a = some (.file f) →
    after a = some (.file ⟨f.written ++ bytes⟩) ∧ received a (cuts shown) = []

theorem processed_of_sink {bytes : List UInt8} {after : Heap} {shown : List RunOutput} {a : Nat}
    (h : ∀ sink, heap a = some sink → after a = some (sinkMachine.finish sink bytes) ∧
      received a (cuts shown) = sinkMachine.outputs sink bytes) :
    Processed bytes heap after shown a where
  parser p hp := by
    rw [← finish_parserSink, ← outputs_parserSink]
    exact h (.parser p) hp
  file f hf := by
    rw [← finish_fileSink, ← outputs_fileSink f bytes]
    exact h (.file f) hf

theorem Processed.congr {bytes : List UInt8} {heap heap' after after' : Heap}
    {shown shown' : List RunOutput} {a a' : Nat} (h : Processed bytes heap after shown a)
    (h' : Processed bytes heap' after' shown' a') (hsink : heap a ≠ none)
    (hsame : heap a = heap' a') :
    after a = after' a' ∧ received a (cuts shown) = received a' (cuts shown') := by
  obtain ⟨sink, hsome⟩ := Option.ne_none_iff_exists'.mp hsink
  cases sink with
  | parser p =>
      obtain ⟨hend, hcuts⟩ := h.parser p hsome
      obtain ⟨hend', hcuts'⟩ := h'.parser p (hsame ▸ hsome)
      exact ⟨hend.trans hend'.symm, hcuts.trans hcuts'.symm⟩
  | file f =>
      obtain ⟨hend, hcuts⟩ := h.file f hsome
      obtain ⟨hend', hcuts'⟩ := h'.file f (hsame ▸ hsome)
      exact ⟨hend.trans hend'.symm, hcuts.trans hcuts'.symm⟩

/-- A run over framed reports leaves every registered sink as the payload does. -/
theorem mainLoop_processed (clock : Clock) (verbose : Bool)
    (hheap : ∀ a ∈ registered, heap a ≠ none) (h : ∀ r ∈ results, r.Framed) (con : Console) :
    ∃ after shown,
      mainLoop clock.now (registerAll registered (newByteSource verbose)) results heap con =
        .ok (after, shown.foldl (RunOutput.print clock) con) ∧
      (∀ a ∉ registered, after a = heap a) ∧
      ∀ a ∈ registered, Processed (payload results) heap after shown a := by
  obtain ⟨after, shown, hrun, hothers, hsinks⟩ := mainLoop_sinks clock
    (fun a ha => hheap a (mem_registerAll_newByteSource.mp ha)) h con
  refine ⟨after, shown, hrun, fun a ha => ?_, fun a ha => ?_⟩
  · exact (hothers a (mt mem_registerAll_newByteSource.mp ha)).1
  · exact processed_of_sink (hsinks a (mem_registerAll_newByteSource.mpr ha))

/-- **Fan-out.** Every registered sink receives the payload of framed reports, each byte once and in
order, and no other sink receives anything. Two runs with one payload leave a sink that both have in
the same state, with the same cuts. -/
theorem fan_out {registered registered' : List Nat} {results results' : List HidRead}
    (hframed : ∀ r ∈ results, r.Framed) (hframed' : ∀ r ∈ results', r.Framed)
    (hpayload : payload results = payload results') (verbose verbose' : Bool) :
    (∃ events,
      (∀ now heap con,
        mainLoop now (registerAll registered (newByteSource verbose)) results heap con =
          events.foldlM (RunEvent.perform now) (heap, con)) ∧
      ∀ a, received a (calls events) = if a ∈ registered then payload results else []) ∧
    ∀ (clock clock' : Clock) (heap heap' : Heap) (con con' : Console),
      (∀ a ∈ registered, heap a ≠ none) → (∀ a ∈ registered', heap' a ≠ none) →
      ∃ after after' shown shown',
        mainLoop clock.now (registerAll registered (newByteSource verbose)) results heap con =
          .ok (after, shown.foldl (RunOutput.print clock) con) ∧
        mainLoop clock'.now (registerAll registered' (newByteSource verbose')) results' heap' con' =
          .ok (after', shown'.foldl (RunOutput.print clock') con') ∧
        (∀ a ∈ registered, Processed (payload results) heap after shown a) ∧
        ∀ a ∈ registered, ∀ a' ∈ registered', heap a = heap' a' →
          after a = after' a' ∧ received a (cuts shown) = received a' (cuts shown') := by
  have hfits : ∀ r ∈ results, r.Fits := fun r hr => (hframed r hr).fits
  refine ⟨⟨_, fun now heap con => mainLoop_eq now _ hfits heap con, ?_⟩, ?_⟩
  · intro a
    rw [received_calls _ hframed]
    exact if_congr mem_registerAll_newByteSource rfl rfl
  · intro clock clock' heap heap' con con' hheap hheap'
    obtain ⟨after, shown, hrun, -, hprocessed⟩ :=
      mainLoop_processed clock verbose hheap hframed con
    obtain ⟨after', shown', hrun', -, hprocessed'⟩ :=
      mainLoop_processed clock' verbose' hheap' hframed' con'
    refine ⟨after, after', shown, shown', hrun, hrun', hprocessed, ?_⟩
    intro a ha a' ha' hsame
    exact (hprocessed a ha).congr (hpayload ▸ hprocessed' a' ha') (hheap a ha) hsame

/-- A frame end in one report, and in two with an error and a timeout in between. -/
def oneReport : List HidRead := [.report [2, 0x0d, 0x0a] (by decide)]

def twoReports : List HidRead :=
  [.report [1, 0x0d] (by decide), .error, .timeout, .report [1, 0x0a] (by decide)]

/-- A parser and a file. -/
def parserAndFile : Heap := fun a =>
  if a = 1 then some (.parser (freshParser true)) else some (.file ⟨[]⟩)

theorem parserAndFile_ne_none (a : Nat) : parserAndFile a ≠ none := by
  rw [parserAndFile]
  split <;> exact Option.some_ne_none _

theorem fan_out_split :
    ∃ after after' con con',
      mainLoop Clock.stopped.now (registerAll [2, 1, 2] (newByteSource false)) oneReport
        parserAndFile .empty = .ok (after, con) ∧
      mainLoop Clock.stopped.now (registerAll [1, 2] (newByteSource true)) twoReports
        parserAndFile .empty = .ok (after', con') ∧
      after 1 = after' 1 ∧ after 2 = after' 2 := by
  have hframed : ∀ r ∈ oneReport, r.Framed := by decide
  have hframed' : ∀ r ∈ twoReports, r.Framed := by decide
  obtain ⟨after, after', shown, shown', hrun, hrun', -, hsame⟩ :=
    (fan_out hframed hframed' rfl false true).2 Clock.stopped Clock.stopped parserAndFile
      parserAndFile .empty .empty (fun a _ => parserAndFile_ne_none a) fun a _ =>
        parserAndFile_ne_none a
  exact ⟨after, after', _, _, hrun, hrun', (hsame 1 (by decide) 1 (by decide) rfl).1,
    (hsame 2 (by decide) 2 (by decide) rfl).1⟩

end UT612
