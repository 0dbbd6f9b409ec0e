import UT612.Proof.Parser.Segments

/-!
# The greedy segmentation

What a fresh parser makes of its whole input, said without the parser: the input has one
segmentation into frame ends, and the cuts, the distances and the buffer are read off it. No byte is
lost without a trace, because the distances add up to what has been read.
-/

namespace UT612

open Segmentation

/-- A cut that shows the end of a segment, and whose alignment error, if there is one, prints the
length of the segment. -/
structure CutOf (c : Cut) (s : List UInt8) : Prop where
  window : c.window.bytes = s.drop (s.length - frameSize)
  distance : c.bytesSinceLastFrame = s.length
  alignment : alignmentError c.bytesSinceLastFrame =
    if s.length = frameSize then []
    else "\nERROR - FRAME ALIGNMENT ERROR (diff=".toList ++ Nat.toDigits 10 s.length ++
      ")\n".toList

theorem cutOf_of_seen {c : Cut} {s : List UInt8} (h : c.seen = segmentSeen s)
    (hs : s.length < 2 ^ 31) : CutOf c s := by
  rw [segmentSeen, sizeToInt_ofNat hs] at h
  have hdistance : c.bytesSinceLastFrame = s.length := congrArg Prod.snd h
  refine ⟨congrArg Prod.fst h, hdistance, ?_⟩
  rw [hdistance]
  by_cases h17 : s.length = frameSize
  · rw [if_pos h17, h17, alignmentError_eq_nil_iff]
  · have herror : alignmentError s.length = _ := if_neg (by exact_mod_cast h17)
    have hpositive : ¬ (s.length : Int) < 0 := by omega
    rw [if_neg h17, herror, if_neg hpositive, List.nil_append, Int.natAbs_natCast]

theorem forall₂_cutOf {cuts : List Cut} {segments : List (List UInt8)}
    (h : cuts.map Cut.seen = segments.map segmentSeen) (hs : ∀ s ∈ segments, s.length < 2 ^ 31) :
    List.Forall₂ CutOf cuts segments := by
  induction cuts generalizing segments with
  | nil =>
      obtain rfl : segments = [] := by simpa using h.symm
      exact .nil
  | cons c cuts ih =>
      cases segments with
      | nil => simp at h
      | cons s segments =>
          obtain ⟨hc, hcuts⟩ := List.cons.inj h
          exact .cons (cutOf_of_seen hc (hs s (by simp))) (ih hcuts fun t ht => hs t (by simp [ht]))

/-- The distances add up. -/
theorem sum_distances {cuts : List Cut} {segments : List (List UInt8)}
    (h : List.Forall₂ CutOf cuts segments) :
    (cuts.map Cut.bytesSinceLastFrame).sum = segments.flatten.length := by
  induction h with
  | nil => rfl
  | cons hc _ ih => simp [hc.distance, ih]

/-- Cuts without alignment errors are their segments. -/
theorem flatten_windows {cuts : List Cut} {segments : List (List UInt8)}
    (h : List.Forall₂ CutOf cuts segments)
    (haligned : ∀ c ∈ cuts, alignmentError c.bytesSinceLastFrame = []) :
    (cuts.map fun c => c.window.bytes).flatten = segments.flatten := by
  induction h with
  | nil => rfl
  | @cons c s cuts segments hc _ ih =>
      have hdistance := (alignmentError_eq_nil_iff _).mp (haligned c (by simp))
      rw [hc.distance] at hdistance
      have hlength : s.length - frameSize = 0 := by omega
      rw [List.map_cons, List.flatten_cons, List.flatten_cons, hc.window, hlength, List.drop_zero,
        ih fun c hc => haligned c (by simp [hc])]

/-- **Greedy segmentation.** A fresh parser cuts its input at the ends of the only segmentation the
input has, keeps the rest in its buffer, and reports every distance that is not 17, before what it
says of the frame. The distances and the rest make up the length of the input, and without a reported
distance the windows and the rest are the input. -/
theorem processBytes_greedy (clock : Clock) (doTimestamp : Bool) (con : Console) (bs : List UInt8)
    (hlength : bs.length < 2 ^ 31) :
    ∃ segments rest cuts p con',
      (IsSegmentation FrameEnd bs segments rest ∧
        ∀ segments' rest', IsSegmentation FrameEnd bs segments' rest' →
          segments' = segments ∧ rest' = rest) ∧
      processBytes clock.now bs (freshParser doTimestamp) con = .ok (p, con') ∧
      con' = cuts.foldl (Console.emit clock doTimestamp) con ∧
      con'.cerr = con.cerr ++
        (cuts.map fun c => alignmentError c.bytesSinceLastFrame ++ c.window.rejection).flatten ∧
      cuts = framer.outputs (freshParser doTimestamp) bs ∧
      p.buffer = rest ∧
      List.Forall₂ CutOf cuts segments ∧
      (cuts.map Cut.bytesSinceLastFrame).sum + rest.length = bs.length ∧
      ((∀ c ∈ cuts, alignmentError c.bytesSinceLastFrame = []) →
        (cuts.map fun c => c.window.bytes).flatten ++ rest = bs) := by
  have htracks := tracks_freshParser doTimestamp
  have hsegmentation := isSegmentation_bytes bs
  have hshort : ∀ s ∈ (segmenter FrameEnd).outputs [] bs, s.length < 2 ^ 31 := by
    intro s hs
    have hle := (List.sublist_flatten_of_mem hs).length_le
    have hjoin := congrArg List.length hsegmentation.join
    rw [List.length_append] at hjoin
    omega
  have hcuts := forall₂_cutOf (htracks.outputs_seen bs) hshort
  refine ⟨_, _, _, _, _, ⟨hsegmentation, fun _ _ h => h.unique hsegmentation⟩,
    processBytes_eq clock bs _ con, rfl, ?_, rfl, (htracks.finish bs).buffer, hcuts, ?_,
    fun haligned => ?_⟩
  · rw [foldl_emit]
    rfl
  · rw [sum_distances hcuts]
    have hjoin := congrArg List.length hsegmentation.join
    rw [List.length_append] at hjoin
    exact_mod_cast hjoin
  · rw [flatten_windows hcuts haligned]
    exact hsegmentation.join

/-- A stray byte, a frame, a damaged frame, a frame with a delimiter inside it, and the beginning of
another. -/
def strayInput : List UInt8 :=
  0x41 :: phaseFrame.bytes ++ damagedFrame.bytes ++ delimiterFrame.bytes ++ [0x00, 0x0d]

theorem processBytes_greedy_stray :
    ∃ (cuts : List Cut) (p : UT612ByteStreamParser) (con' : Console),
      processBytes Clock.stopped.now strayInput (freshParser false) .empty = .ok (p, con') ∧
      con'.cerr = "\nERROR - FRAME ALIGNMENT ERROR (diff=18)\n".toList ++
        rejectionMessage ("ERROR: not a zero in first byte " ++
          "(expected 0x0d 0x0a to be followed by 0x00)").toList damagedFrame.bytes ∧
      cuts.map Cut.shown = [(phaseFrame, 18), (damagedFrame, 17), (delimiterFrame, 17)] ∧
      p.buffer = [0x00, 0x0d] ∧
      (cuts.map Cut.bytesSinceLastFrame).sum + p.buffer.length = 54 := by
  obtain ⟨_, rest, cuts, p, con', -, hrun, -, hcerr, hcuts, rfl, -, hsum, -⟩ :=
    processBytes_greedy Clock.stopped false .empty strayInput (by decide)
  have hshown : cuts.map Cut.shown =
      [(phaseFrame, 18), (damagedFrame, 17), (delimiterFrame, 17)] := by
    rw [hcuts]
    decide +kernel
  have hbuffer : p.buffer = [0x00, 0x0d] := by
    obtain ⟨rfl, -⟩ := Prod.mk.inj (Except.ok.inj ((processBytes_eq _ _ _ _).symm.trans hrun))
    decide +kernel
  refine ⟨cuts, p, con', hrun, hcerr.trans ?_, hshown, hbuffer, hsum⟩
  rw [hcuts]
  decide +kernel

end UT612
