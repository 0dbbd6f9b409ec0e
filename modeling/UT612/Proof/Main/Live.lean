import UT612.Model.Main
import UT612.Proof.Source.FanOut

/-!
# A live session

In a session with a parser and a file the parser prints what it would print alone, in whichever
order the two are notified, and the file ends up with the bytes delivered. These are the bytes that
the main loop takes out of framed reports.
-/

namespace UT612

/-! ### A session -/

/-- A source with a parser and a file as its sinks. -/
structure Session (source : UT612ByteSource) (heap : Heap) (parserAt byteSaverAt : Nat)
    (p : UT612ByteStreamParser) (written : List UInt8) : Prop where
  ne : parserAt ≠ byteSaverAt
  sinks : source.byteSinks = [parserAt, byteSaverAt] ∨ source.byteSinks = [byteSaverAt, parserAt]
  parser : heap parserAt = some (.parser p)
  byteSaver : heap byteSaverAt = some (.file ⟨written⟩)

section Session

variable {source : UT612ByteSource} {heap : Heap} {parserAt byteSaverAt : Nat}
  {p : UT612ByteStreamParser} {written : List UInt8}

theorem Session.ne_none (h : Session source heap parserAt byteSaverAt p written) :
    ∀ a ∈ source.byteSinks, heap a ≠ none := by
  intro a ha
  have hor : a = parserAt ∨ a = byteSaverAt := by
    rcases h.sinks with hsinks | hsinks
    · simpa [hsinks] using ha
    · simpa [hsinks, or_comm] using ha
  rcases hor with rfl | rfl
  · simp [h.parser]
  · simp [h.byteSaver]

theorem Session.notify (clock : Clock) (byte : UInt8) (con : Console)
    (h : Session source heap parserAt byteSaverAt p written) :
    ∃ heap', notifyAllByteSinks clock.now byte source heap con =
        .ok (heap', (framer.step p byte).2.toList.foldl (Console.emit clock p.doTimestamp) con) ∧
      Session source heap' parserAt byteSaverAt (framer.step p byte).1 (written ++ [byte]) := by
  have hmem : parserAt ∈ source.byteSinks ∧ byteSaverAt ∈ source.byteSinks := by
    rcases h.sinks with hsinks | hsinks <;> simp [hsinks]
  refine ⟨heap.after byte source.byteSinks,
    (notifyByteSinks_eq clock byte source.nodup h.ne_none con).trans ?_, h.ne, h.sinks, ?_, ?_⟩
  · rcases h.sinks with hsinks | hsinks <;>
      simp [hsinks, h.parser, h.byteSaver, ByteSink.print]
  · simp [Heap.after, hmem.1, h.parser, ByteSink.after]
  · simp [Heap.after, hmem.2, h.byteSaver, ByteSink.after, ByteStreamToFile.processByte]

/-- The bytes delivered in a session reach the parser and the file. -/
theorem Session.deliver (clock : Clock) (bytes : List UInt8) (con : Console)
    (h : Session source heap parserAt byteSaverAt p written) :
    ∃ heap', deliver clock.now source bytes heap con =
        .ok (heap', (framer.outputs p bytes).foldl (Console.emit clock p.doTimestamp) con) ∧
      Session source heap' parserAt byteSaverAt (framer.finish p bytes) (written ++ bytes) := by
  induction bytes generalizing heap p written con with
  | nil => exact ⟨heap, rfl, by simpa using h⟩
  | cons byte bytes ih =>
      obtain ⟨heap₁, hnotify, h₁⟩ := h.notify clock byte con
      obtain ⟨heap₂, hdeliver, h₂⟩ := ih _ h₁
      refine ⟨heap₂, ?_, by simpa using h₂⟩
      rw [UT612.deliver, hnotify, Transducer.outputs_cons, List.foldl_append,
        ← framer_step_doTimestamp p byte]
      exact hdeliver

end Session

/-- What `processUSB` sets up for a session whose bytes are saved. -/
theorem session_setUpUSB (doPrintHeader verbose : Bool) {parserAt byteSaverAt : Nat}
    (hne : parserAt ≠ byteSaverAt) (con : Console) :
    Session (setUpUSB doPrintHeader verbose parserAt (some byteSaverAt) con).1
      (setUpUSB doPrintHeader verbose parserAt (some byteSaverAt) con).2.1 parserAt byteSaverAt
      (freshParser true) [] where
  ne := hne
  sinks := by
    rcases Nat.lt_or_gt_of_ne hne with hlt | hlt
    · left
      simp [setUpUSB, registerByteSink, newByteSource, setInsert, hne.symm, Nat.not_lt_of_lt hlt]
    · right
      simp [setUpUSB, registerByteSink, newByteSource, setInsert, hlt]
  parser := by
    simp [setUpUSB, newParser, hne]
  byteSaver := by
    simp [setUpUSB]

/-- What `processUSB` shows and saves is what the main loop makes of framed reports. -/
theorem processUSB_payload (clock : Clock) (doPrintHeader verbose : Bool) {parserAt byteSaverAt : Nat}
    (hne : parserAt ≠ byteSaverAt) {results : List HidRead} (h : ∀ r ∈ results, r.Framed)
    (con : Console) :
    let s := setUpUSB doPrintHeader verbose parserAt (some byteSaverAt) con
    ∃ heap con₁ con₂, mainLoop clock.now s.1 results s.2.1 s.2.2 = .ok (heap, con₁) ∧
      processUSB clock.now doPrintHeader verbose parserAt (some byteSaverAt) (payload results) con =
        .ok (heap, con₂) ∧
      SameOutput con₁ con₂ :=
  mainLoop_deliver clock (session_setUpUSB doPrintHeader verbose hne con).ne_none h _

end UT612
