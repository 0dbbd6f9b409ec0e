import UT612.Proof.Parser.Lock

/-!
# How many windows are cut

The number of windows depends little on the past. A frame end stays one with more bytes before it, so
two parsers with different histories take turns at the ends of a common input until they cut at the
same byte, and agree from there on. Of all divisions of an input into pieces that end like frames the
cuts make as many as any.
-/

namespace UT612

open Segmentation Delimited

/-! ### Two histories -/

/-- What has been read since the last cut tells all later windows and distances. -/
theorem Tracks.trace_shown_eq {p p' : UT612ByteStreamParser} {pending : List UInt8}
    (h : Tracks p pending) (h' : Tracks p' pending) (bytes : List UInt8) :
    (framer.trace p bytes).map (Option.map Cut.shown) =
      (framer.trace p' bytes).map (Option.map Cut.shown) := by
  apply map_bytes_injective
  rw [List.map_map, List.map_map]
  have hseen := (h.trace_seen bytes).trans (h'.trace_seen bytes).symm
  simpa only [Function.comp_def, Option.map_map, Cut.seen_eq] using hseen

/-- A parser that has just made a cut has read nothing since. -/
theorem Tracks.of_cut {p : UT612ByteStreamParser} {pending bytes : List UInt8} {i : Nat} {c : Cut}
    (h : Tracks p pending) (hcut : (framer.trace p bytes)[i]? = some (some c)) :
    Tracks (framer.finish p (bytes.take (i + 1))) [] := by
  rw [Transducer.getElem?_trace] at hcut
  obtain ⟨byte, hbyte, hstep⟩ := Option.map_eq_some_iff.mp hcut
  have hbefore := h.finish (bytes.take i)
  have htake : bytes.take (i + 1) = bytes.take i ++ [byte] := by
    rw [List.take_add_one, hbyte, Option.toList_some]
  have hend : EndsFrame (framer.finish p (bytes.take i)) byte := by
    by_contra hnot
    rw [framer_step_of_not_endsFrame hnot] at hstep
    exact nomatch hstep
  have hafter := hbefore.step byte
  rw [step_of_stop ((hbefore.endsFrame_iff byte).mp hend)] at hafter
  rw [htake, Transducer.finish_append]
  exact hafter

/-- **Coalescence.** Parsers that cut at the same byte show the same from there on. -/
theorem Tracks.trace_eq_after_cut {p p' : UT612ByteStreamParser} {pending pending' : List UInt8}
    (h : Tracks p pending) (h' : Tracks p' pending') {bytes : List UInt8} {i : Nat} {c c' : Cut}
    (hcut : (framer.trace p bytes)[i]? = some (some c))
    (hcut' : (framer.trace p' bytes)[i]? = some (some c')) :
    ((framer.trace p bytes).drop (i + 1)).map (Option.map Cut.shown) =
      ((framer.trace p' bytes).drop (i + 1)).map (Option.map Cut.shown) := by
  rw [Transducer.drop_trace, Transducer.drop_trace]
  exact (h.of_cut hcut).trace_shown_eq (h'.of_cut hcut') _

theorem Tracks.length_outputs {p : UT612ByteStreamParser} {pending : List UInt8}
    (h : Tracks p pending) (bytes : List UInt8) :
    (framer.outputs p bytes).length = ((segmenter FrameEnd).outputs pending bytes).length := by
  have hlength := congrArg List.length (h.outputs_seen bytes)
  rwa [List.length_map, List.length_map] at hlength

/-- A parser with a past, and the cuts it makes of some more bytes. -/
structure Continues (clock : Clock) (doTimestamp : Bool) (history : List UInt8) (con : Console)
    (bytes : List UInt8) (p : UT612ByteStreamParser) (cuts : List Cut) : Prop where
  run : ∃ before q,
    processBytes clock.now history (freshParser doTimestamp) con = .ok (p, before) ∧
    processBytes clock.now bytes p before =
      .ok (q, cuts.foldl (Console.emit clock doTimestamp) before)
  cuts_eq : cuts = framer.outputs p bytes
  tracks : Tracks p ((segmenter FrameEnd).finish [] history)

theorem continues (clock : Clock) (doTimestamp : Bool) (history : List UInt8) (con : Console)
    (bytes : List UInt8) :
    ∃ p cuts, Continues clock doTimestamp history con bytes p cuts := by
  have hrun := processBytes_eq clock history (freshParser doTimestamp) con
  have hcuts := processBytes_eq clock bytes (framer.finish (freshParser doTimestamp) history)
    ((framer.outputs (freshParser doTimestamp) history).foldl (Console.emit clock doTimestamp) con)
  rw [doTimestamp_of_processBytes hrun] at hcuts
  exact ⟨_, _, ⟨_, _, hrun, hcuts⟩, rfl, tracks_of_processBytes hrun⟩

theorem Continues.length_cuts {clock : Clock} {doTimestamp : Bool} {history bytes : List UInt8}
    {con : Console} {p : UT612ByteStreamParser} {cuts : List Cut}
    (h : Continues clock doTimestamp history con bytes p cuts) :
    cuts.length =
      ((segmenter FrameEnd).outputs ((segmenter FrameEnd).finish [] history) bytes).length := by
  rw [h.cuts_eq, h.tracks.length_outputs]

/-- **Two histories.** Whatever two parsers have read before, of the same bytes neither cuts more than
one window more than the other, and once they have cut at the same byte they cut the same windows at
the same distances. -/
theorem rows_robust (clock clock' : Clock) (doTimestamp doTimestamp' : Bool)
    (history history' bytes : List UInt8) (con con' : Console) :
    ∃ p p' cuts cuts',
      Continues clock doTimestamp history con bytes p cuts ∧
      Continues clock' doTimestamp' history' con' bytes p' cuts' ∧
      cuts.length ≤ cuts'.length + 1 ∧ cuts'.length ≤ cuts.length + 1 ∧
      ∀ i c c', (framer.trace p bytes)[i]? = some (some c) →
        (framer.trace p' bytes)[i]? = some (some c') →
        ((framer.trace p bytes).drop (i + 1)).map (Option.map Cut.shown) =
          ((framer.trace p' bytes).drop (i + 1)).map (Option.map Cut.shown) := by
  obtain ⟨p, cuts, h⟩ := continues clock doTimestamp history con bytes
  obtain ⟨p', cuts', h'⟩ := continues clock' doTimestamp' history' con' bytes
  refine ⟨p, p', cuts, cuts', h, h', ?_, ?_, ?_⟩
  · rw [h.length_cuts, h'.length_cuts]
    exact length_outputs_le leftClosed_closed _ _ bytes
  · rw [h.length_cuts, h'.length_cuts]
    exact length_outputs_le leftClosed_closed _ _ bytes
  · exact fun i c c' hcut hcut' => h.tracks.trace_eq_after_cut h'.tracks hcut hcut'

/-! ### Pieces that end like frames -/

/-- **As many as possible.** A parser cuts at least as many windows as its input has pieces, however
it is divided into pieces of 17 bytes or more that end with a carriage return and a line feed, and a
rest. -/
theorem rows_optimal (clock : Clock) (doTimestamp : Bool) (history : List UInt8) (con : Console)
    {pieces : List (List UInt8)} (hpieces : ∀ s ∈ pieces, FrameEnd s) (rest : List UInt8) :
    ∃ p cuts, Continues clock doTimestamp history con (pieces.flatten ++ rest) p cuts ∧
      pieces.length ≤ cuts.length := by
  obtain ⟨p, cuts, h⟩ := continues clock doTimestamp history con (pieces.flatten ++ rest)
  refine ⟨p, cuts, h, ?_⟩
  rw [h.length_cuts]
  exact length_le_length_outputs leftClosed_closed (not_closed_nil (by decide)) hpieces rest _

/-- Three pieces, a frame after a stray byte, a damaged frame, and two frames that have a delimiter
inside them, from a parser that has read a byte. -/
theorem rows_optimal_stray :
    ∃ p cuts, Continues Clock.stopped false [0x41] .empty
        ([0x41 :: phaseFrame.bytes, damagedFrame.bytes,
          delimiterFrame.bytes ++ delimiterFrame.bytes].flatten ++ [0x0d]) p cuts ∧
      3 ≤ cuts.length :=
  rows_optimal Clock.stopped false [0x41] .empty (by decide) [0x0d]

/-- The number of windows in a stream of frames. -/
theorem length_outputs_frames {frames : List Window} (hframes : ∀ f ∈ frames, f.Terminated)
    (pending : List UInt8) :
    frames.length ≤ ((segmenter FrameEnd).outputs pending (frames.flatMap Window.bytes)).length ∧
      ((segmenter FrameEnd).outputs pending (frames.flatMap Window.bytes)).length ≤
        frames.length + 1 ∧
      frameSize * ((segmenter FrameEnd).outputs pending (frames.flatMap Window.bytes)).length ≤
        pending.length + frameSize * frames.length := by
  have hpieces : ∀ s ∈ frames.map Window.bytes, FrameEnd s := by
    intro s hs
    obtain ⟨f, hf, rfl⟩ := List.mem_map.mp hs
    exact (hframes f hf).isWord.isSegment.stops
  have hlower := length_le_length_outputs leftClosed_closed (not_closed_nil (by decide)) hpieces []
    pending
  rw [List.append_nil, List.length_map, ← flatMap_bytes] at hlower
  have hclean : ((segmenter FrameEnd).outputs [] (frames.flatMap Window.bytes)).length =
      frames.length := by
    rw [Transducer.outputs, (run_frames hframes).1, reduceOption_flatMap_atLast, List.length_map]
  have hupper : ((segmenter FrameEnd).outputs pending (frames.flatMap Window.bytes)).length ≤ _ :=
    length_outputs_le leftClosed_closed pending [] (frames.flatMap Window.bytes)
  have hbytes : frameSize *
      ((segmenter FrameEnd).outputs pending (frames.flatMap Window.bytes)).length ≤ _ :=
    mul_length_outputs_le pending (frames.flatMap Window.bytes)
  rw [hclean] at hupper
  rw [length_flatMap_bytes] at hbytes
  exact ⟨hlower, hupper, hbytes⟩

/-- **Frames.** Whatever has been read before, a parser cuts `n` windows while it reads `n` frames,
in step with them or not, or `n + 1` if it has a whole frame in its buffer. -/
theorem rows_of_frames (clock : Clock) (doTimestamp : Bool) (history : List UInt8) (con : Console)
    {frames : List Window} (hframes : ∀ f ∈ frames, f.Terminated) :
    ∃ p cuts, Continues clock doTimestamp history con (frames.flatMap Window.bytes) p cuts ∧
      (cuts.length = frames.length ∨
        cuts.length = frames.length + 1 ∧ frameSize ≤ p.buffer.length) := by
  obtain ⟨p, cuts, h⟩ := continues clock doTimestamp history con (frames.flatMap Window.bytes)
  refine ⟨p, cuts, h, ?_⟩
  obtain ⟨hlower, hupper, hbytes⟩ := length_outputs_frames hframes
    ((segmenter FrameEnd).finish [] history)
  rw [← h.length_cuts] at hlower hupper hbytes
  rw [← h.tracks.buffer] at hbytes
  rcases Nat.lt_or_ge frames.length cuts.length with hlt | hge
  · right
    obtain hlength : cuts.length = frames.length + 1 := by omega
    rw [hlength, Nat.mul_succ] at hbytes
    exact ⟨hlength, by omega⟩
  · exact .inl (by omega)

theorem rows_of_frames_behind :
    ∃ p cuts, Continues Clock.stopped false (phaseFrame.bytes.take 16) .empty
        ([phaseFrame, phaseFrame].flatMap Window.bytes) p cuts ∧
      (cuts.length = 2 ∨ cuts.length = 3 ∧ frameSize ≤ p.buffer.length) :=
  rows_of_frames Clock.stopped false (phaseFrame.bytes.take 16) .empty (by decide)

end UT612
