import UT612.Library.Delimited
import UT612.Proof.Parser.Step

/-!
# The parser as a segmenter

The parser decides with one bit of memory, a buffer and the difference of two counters. `Tracks`
ties all of them to the bytes read since the last cut, one step keeps it, and so the parser shows
what the greedy segmenter of its input shows: the windows are the ends of the segments, and the
distances are their lengths.
-/

namespace UT612

open Segmentation Delimited

/-- The end of a frame: 17 bytes at least, a carriage return and a line feed at their end. -/
abbrev FrameEnd : List UInt8 → Prop := Closed frameSize 0x0d 0x0a

/-- The segmentation of what a fresh parser reads. -/
theorem isSegmentation_bytes (bytes : List UInt8) :
    IsSegmentation FrameEnd bytes ((segmenter FrameEnd).outputs [] bytes)
      ((segmenter FrameEnd).finish [] bytes) :=
  isSegmentation_run (not_closed_nil (by decide)) bytes

/-- The parser has read `pending` since its last cut. -/
structure Tracks (p : UT612ByteStreamParser) (pending : List UInt8) : Prop where
  buffer : p.buffer = pending
  carriageReturn : p.lastByteWasCarriageReturn = true ↔ pending.getLast? = some 0x0d
  byteCount : p.byteCount = p.lastFrameByteCount + UInt64.ofNat pending.length

theorem tracks_freshParser (doTimestamp : Bool) : Tracks (freshParser doTimestamp) [] :=
  ⟨rfl, by simp [freshParser], rfl⟩

/-- What a cut shows of its segment. -/
def Cut.seen (c : Cut) : List UInt8 × Int := (c.window.bytes, c.bytesSinceLastFrame)

def Cut.shown (c : Cut) : Window × Int := (c.window, c.bytesSinceLastFrame)

theorem Cut.seen_eq : Cut.seen = (fun shown => (shown.1.bytes, shown.2)) ∘ Cut.shown := rfl

/-- The bytes of a window tell the window. -/
theorem map_bytes_injective :
    Function.Injective
      (List.map (Option.map fun shown : Window × Int => (shown.1.bytes, shown.2))) := by
  apply List.map_injective_iff.mpr
  apply Option.map_injective
  intro shown shown' h
  obtain ⟨hbytes, hdistance⟩ := Prod.mk.inj h
  exact Prod.ext (Window.ext hbytes) hdistance

/-- The end of a segment, and its length as an `int`. -/
def segmentSeen (s : List UInt8) : List UInt8 × Int :=
  (s.drop (s.length - frameSize), sizeToInt (UInt64.ofNat s.length))

theorem sizeToInt_ofNat {n : Nat} (h : n < 2 ^ 31) : sizeToInt (UInt64.ofNat n) = n := by
  have htoNat : (UInt64.ofNat n).toNat = n := UInt64.toNat_ofNat_of_lt' (h.trans (by decide))
  unfold sizeToInt
  rw [htoNat]
  apply Int.bmod_eq_of_le
  · omega
  · omega

/-! ### One step -/

theorem framer_step_of_endsFrame {p : UT612ByteStreamParser} {byte : UInt8} (h : EndsFrame p byte) :
    framer.step p byte =
      ({ p with
          lastByteWasCarriageReturn := byte == 0x0d
          byteCount := p.byteCount + 1
          lastFrameByteCount := p.byteCount + 1
          frameCount := p.frameCount + 1
          buffer := [] },
        some (cutAt p byte h)) := dif_pos h

theorem framer_step_of_not_endsFrame {p : UT612ByteStreamParser} {byte : UInt8}
    (h : ¬ EndsFrame p byte) :
    framer.step p byte =
      ({ p with
          lastByteWasCarriageReturn := byte == 0x0d
          byteCount := p.byteCount + 1
          buffer := p.buffer ++ [byte] },
        none) := dif_neg h

section Tracks

variable {p : UT612ByteStreamParser} {pending : List UInt8}

theorem Tracks.endsFrame_iff (h : Tracks p pending) (byte : UInt8) :
    EndsFrame p byte ↔ FrameEnd (pending ++ [byte]) := by
  rw [EndsFrame, FrameEnd, Closed, suffix_concat_iff, counted, h.buffer, Bool.and_eq_true,
    beq_iff_eq, h.carriageReturn, and_comm]

theorem Tracks.byteCount_succ (h : Tracks p pending) (byte : UInt8) :
    p.byteCount + 1 = p.lastFrameByteCount + UInt64.ofNat (pending ++ [byte]).length := by
  rw [h.byteCount, List.length_append, List.length_singleton, UInt64.ofNat_add, UInt64.add_assoc]
  rfl

theorem Tracks.step (h : Tracks p pending) (byte : UInt8) :
    Tracks (framer.step p byte).1 ((segmenter FrameEnd).step pending byte).1 := by
  by_cases hend : EndsFrame p byte
  · have hlf : byte = 0x0a := by
      have := hend.1
      rw [Bool.and_eq_true, beq_iff_eq] at this
      exact this.2
    rw [framer_step_of_endsFrame hend, step_of_stop ((h.endsFrame_iff byte).mp hend)]
    exact ⟨rfl, by simp [hlf], by simp⟩
  · rw [framer_step_of_not_endsFrame hend,
      step_of_not_stop (mt (h.endsFrame_iff byte).mpr hend)]
    exact ⟨by rw [h.buffer], by simp, h.byteCount_succ byte⟩

theorem Tracks.step_seen (h : Tracks p pending) (byte : UInt8) :
    (framer.step p byte).2.map Cut.seen =
      ((segmenter FrameEnd).step pending byte).2.map segmentSeen := by
  by_cases hend : EndsFrame p byte
  · rw [framer_step_of_endsFrame hend, step_of_stop ((h.endsFrame_iff byte).mp hend)]
    have hdistance : (counted p byte).byteCount - p.lastFrameByteCount =
        UInt64.ofNat (pending ++ [byte]).length := by
      rw [counted, h.byteCount_succ byte, UInt64.add_comm]
      exact UInt64.add_sub_cancel _ _
    simp only [Option.map_some, Cut.seen, cutAt, lastWindow_bytes, segmentSeen, hdistance]
    rw [counted, h.buffer]
  · rw [framer_step_of_not_endsFrame hend, step_of_not_stop (mt (h.endsFrame_iff byte).mpr hend)]
    rfl

/-! ### Runs -/

/-- **Segments.** A run of the parser tracks the run of the segmenter, and shows its segments. -/
theorem Tracks.finish (h : Tracks p pending) (bytes : List UInt8) :
    Tracks (framer.finish p bytes) ((segmenter FrameEnd).finish pending bytes) :=
  Transducer.finish_related (fun _ _ byte h => h.step byte) h bytes

theorem Tracks.trace_seen (h : Tracks p pending) (bytes : List UInt8) :
    (framer.trace p bytes).map (Option.map Cut.seen) =
      ((segmenter FrameEnd).trace pending bytes).map (Option.map segmentSeen) :=
  Transducer.trace_related (fun _ _ byte h => h.step byte)
    (fun _ _ byte h => h.step_seen byte) h bytes

theorem Tracks.outputs_seen (h : Tracks p pending) (bytes : List UInt8) :
    (framer.outputs p bytes).map Cut.seen =
      ((segmenter FrameEnd).outputs pending bytes).map segmentSeen := by
  simp only [Transducer.outputs, ← List.reduceOption_map, h.trace_seen bytes]

end Tracks

/-- Whatever has been fed to a fresh parser, it tracks what is left of it. -/
theorem tracks_of_processBytes {clock : Clock} {doTimestamp : Bool} {history : List UInt8}
    {con con' : Console} {p : UT612ByteStreamParser}
    (h : processBytes clock.now history (freshParser doTimestamp) con = .ok (p, con')) :
    Tracks p ((segmenter FrameEnd).finish [] history) := by
  rw [processBytes_eq] at h
  obtain ⟨rfl, -⟩ := Prod.mk.inj (Except.ok.inj h)
  exact (tracks_freshParser doTimestamp).finish history

theorem doTimestamp_of_processBytes {clock : Clock} {doTimestamp : Bool} {history : List UInt8}
    {con con' : Console} {p : UT612ByteStreamParser}
    (h : processBytes clock.now history (freshParser doTimestamp) con = .ok (p, con')) :
    p.doTimestamp = doTimestamp := by
  rw [processBytes_eq] at h
  obtain ⟨rfl, -⟩ := Prod.mk.inj (Except.ok.inj h)
  exact framer.finish_induction (I := fun p => p.doTimestamp = doTimestamp)
    (fun p byte h => (framer_step_doTimestamp p byte).trans h) rfl history

/-! ### Numbers -/

theorem add_one_add_ofNat (n : UInt64) (i : Nat) :
    n + 1 + UInt64.ofNat i = n + UInt64.ofNat (i + 1) := by
  rw [UInt64.ofNat_add, UInt64.add_assoc, UInt64.add_comm 1]
  rfl

/-- The cuts of a run are numbered from the frame count on, as far as a `size_t` goes. -/
theorem number_of_getElem?_outputs {p : UT612ByteStreamParser} {bytes : List UInt8} {i : Nat}
    {c : Cut} (h : (framer.outputs p bytes)[i]? = some c) :
    c.number = p.frameCount + UInt64.ofNat i := by
  induction bytes generalizing p i with
  | nil => simp at h
  | cons byte bytes ih =>
      rw [Transducer.outputs_cons] at h
      by_cases hend : EndsFrame p byte
      · rw [framer_step_of_endsFrame hend] at h
        cases i with
        | zero =>
            obtain rfl : cutAt p byte hend = c := by simpa using h
            exact (UInt64.add_zero _).symm
        | succ i =>
            rw [ih (by simpa using h)]
            exact add_one_add_ofNat p.frameCount i
      · rw [framer_step_of_not_endsFrame hend] at h
        have hnumber := ih h
        exact hnumber

/-- The lines of a run, once its windows are known. -/
theorem cutLines_outputs (clock : Clock) (doTimestamp : Bool) (reads : Nat)
    {p : UT612ByteStreamParser} {bytes : List UInt8} {windows : List Window}
    (h : (framer.outputs p bytes).map Cut.window = windows) :
    cutLines clock doTimestamp reads (framer.outputs p bytes) =
      windows.mapIdx fun i w =>
        frameLine (p.frameCount + UInt64.ofNat i) (stamp clock doTimestamp (reads + i)) w := by
  subst h
  apply List.ext_getElem?
  intro i
  rw [cutLines, List.getElem?_mapIdx, List.getElem?_mapIdx, List.getElem?_map, Option.map_map]
  cases hc : (framer.outputs p bytes)[i]? with
  | none => rfl
  | some c =>
      rw [Option.map_some, Option.map_some, Function.comp_apply, number_of_getElem?_outputs hc]

/-- What a fresh parser prints, once its windows are known. -/
theorem cout_of_freshParser (clock : Clock) (doTimestamp : Bool) (con : Console)
    (bytes : List UInt8) :
    ((framer.outputs (freshParser doTimestamp) bytes).foldl (Console.emit clock doTimestamp) con).cout =
      con.cout ++
        (((framer.outputs (freshParser doTimestamp) bytes).map Cut.window).mapIdx fun i w =>
          frameLine (UInt64.ofNat i) (stamp clock doTimestamp (con.clockReads + i)) w).flatten := by
  rw [foldl_emit, cutLines_outputs clock doTimestamp con.clockReads rfl]
  simp only [freshParser, UInt64.zero_add]

end UT612
