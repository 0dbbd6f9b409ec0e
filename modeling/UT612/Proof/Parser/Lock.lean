import UT612.Proof.Parser.Segments

/-!
# Lock and containment

Once the parser has cut a frame, or begins one with nothing pending, it cuts frame after frame at
their ends, whatever they contain: with the buffer empty no delimiter inside a frame can end it.
From any other state it does so as soon as a frame comes that has no delimiter of its own inside it.
What was read before shows only in the distance reported for the first frame.
-/

namespace UT612

open Segmentation Delimited

/-- A frame that ends with a carriage return and a line feed. -/
def Window.Terminated (w : Window) : Prop := [0x0d, 0x0a] <:+ w.bytes

instance (w : Window) : Decidable w.Terminated := inferInstanceAs (Decidable ([_, _] <:+ _))

theorem Window.Terminated.isWord {w : Window} (h : w.Terminated) :
    IsWord frameSize 0x0d 0x0a w.bytes := ⟨w.length_eq, h⟩

/-- A frame that an arbitrary past cannot break: no delimiter ends in it before its last byte, and
its first byte does not complete one. -/
structure Window.Unbroken (w : Window) : Prop where
  no_early_end : ∀ e, e < frameSize → ¬ [0x0d, 0x0a] <:+ w.bytes.take e
  head_ne : w[0] ≠ 0x0a

/-- The bytes of a frame, of which only the last gives something out. -/
def atLast {α : Type} (x : α) : List (Option α) := List.replicate (frameSize - 1) none ++ [some x]

theorem map_atLast {α β : Type} (g : α → β) (x : α) :
    (atLast x).map (Option.map g) = atLast (g x) := by
  simp [atLast]

@[simp] theorem reduceOption_atLast {α : Type} (x : α) : (atLast x).reduceOption = [x] := rfl

theorem reduceOption_flatMap_atLast {α β : Type} (g : α → β) (xs : List α) :
    (xs.flatMap fun x => atLast (g x)).reduceOption = xs.map g := by
  induction xs with
  | nil => rfl
  | cons x xs ih =>
      rw [List.flatMap_cons, List.reduceOption_append, ih, reduceOption_atLast, List.map_cons,
        List.singleton_append]

theorem segmentSeen_append (pending : List UInt8) (w : Window) :
    segmentSeen (pending ++ w.bytes) =
      (w.bytes, sizeToInt (UInt64.ofNat (pending.length + frameSize))) := by
  rw [segmentSeen, List.length_append, w.length_eq, Nat.add_sub_cancel, List.drop_left]

theorem segmentSeen_bytes (w : Window) : segmentSeen w.bytes = (w.bytes, (frameSize : Int)) := by
  rw [segmentSeen, w.length_eq, Nat.sub_self, List.drop_zero, sizeToInt_ofNat (by decide)]

theorem flatMap_bytes (frames : List Window) :
    frames.flatMap Window.bytes = (frames.map Window.bytes).flatten := rfl

theorem length_flatMap_bytes (frames : List Window) :
    (frames.flatMap Window.bytes).length = frameSize * frames.length := by
  induction frames with
  | nil => rfl
  | cons f frames ih =>
      rw [List.flatMap_cons, List.length_append, f.length_eq, ih, List.length_cons, Nat.mul_succ,
        Nat.add_comm]

/-- Whatever is pending, no part of an unbroken frame ends a frame. -/
theorem Window.Unbroken.not_frameEnd {f : Window} (hf : f.Unbroken) {pending p : List UInt8}
    (hp : p <+: f.bytes) (hne : p ≠ []) (hpart : p ≠ f.bytes) : ¬ FrameEnd (pending ++ p) := by
  intro hclosed
  have hlt : p.length < frameSize := by
    rw [← f.length_eq]
    exact hp.length_le.lt_of_ne fun heq => hpart (hp.eq_of_length heq)
  obtain ⟨q, y, rfl⟩ := (List.eq_nil_or_concat' p).resolve_left hne
  have hends := hclosed.2
  rw [← List.append_assoc, suffix_concat_iff] at hends
  obtain ⟨hlast, rfl⟩ := hends
  rcases List.eq_nil_or_concat' q with rfl | ⟨q, z, rfl⟩
  · obtain ⟨t, ht⟩ := hp
    have hhead := f.getElem?_bytes (i := 0) (by decide)
    rw [← ht] at hhead
    exact hf.head_ne (by simpa using hhead.symm)
  · rw [← List.append_assoc, List.getLast?_concat] at hlast
    obtain rfl : z = 0x0d := by simpa using hlast
    apply hf.no_early_end _ hlt
    rw [← List.prefix_iff_eq_take.mp hp]
    exact ⟨q, by simp⟩

section Frames

variable {pending : List UInt8} {f : Window} {frames : List Window}

/-- The first frame is given out at its end, with what was pending before it. -/
theorem run_first_frame (hf : f.Terminated) (hstart : pending = [] ∨ f.Unbroken) :
    (segmenter FrameEnd).trace pending f.bytes = atLast (pending ++ f.bytes) ∧
      (segmenter FrameEnd).finish pending f.bytes = [] := by
  have hne : f.bytes ≠ [] := List.ne_nil_of_length_pos (by rw [f.length_eq]; decide)
  have hstop : FrameEnd (pending ++ f.bytes) := by
    refine ⟨?_, hf.trans (List.suffix_append _ _)⟩
    rw [List.length_append, f.length_eq]
    omega
  have hquiet : ∀ p, p <+: f.bytes → p ≠ [] → p ≠ f.bytes → ¬ FrameEnd (pending ++ p) := by
    intro p hp hpne hpart
    rcases hstart with rfl | hunbroken
    · exact hf.isWord.isSegment.minimal p hp hpart
    · exact hunbroken.not_frameEnd hp hpne hpart
  obtain ⟨htrace, hfinish⟩ := run_of_first_stop hne hquiet hstop
  rw [f.length_eq] at htrace
  exact ⟨htrace, hfinish⟩

/-- With nothing pending, every frame is given out at its end. -/
theorem run_frames (hframes : ∀ f ∈ frames, f.Terminated) :
    (segmenter FrameEnd).trace [] (frames.flatMap Window.bytes) =
        frames.flatMap (fun f => atLast f.bytes) ∧
      (segmenter FrameEnd).finish [] (frames.flatMap Window.bytes) = [] := by
  have hsegments : ∀ s ∈ frames.map Window.bytes, IsSegment FrameEnd s := by
    intro s hs
    obtain ⟨f, hf, rfl⟩ := List.mem_map.mp hs
    exact (hframes f hf).isWord.isSegment
  obtain ⟨htrace, hfinish⟩ := run_of_segments (not_closed_nil (by decide)) hsegments
  refine ⟨?_, hfinish⟩
  rw [flatMap_bytes, htrace, List.flatMap_map]
  apply List.flatMap_congr
  intro f _
  rw [f.length_eq, atLast]

/-- What the parser shows of frames it has locked on to: each frame at its end, and a distance that
is 17 but for the first. -/
theorem Tracks.lock {p : UT612ByteStreamParser} (h : Tracks p pending)
    (hframes : ∀ g ∈ f :: frames, g.Terminated) (hstart : pending = [] ∨ f.Unbroken) :
    (framer.trace p ((f :: frames).flatMap Window.bytes)).map (Option.map Cut.shown) =
        atLast (f, sizeToInt (UInt64.ofNat (pending.length + frameSize))) ++
          frames.flatMap (fun g => atLast (g, (frameSize : Int))) ∧
      (framer.finish p ((f :: frames).flatMap Window.bytes)).buffer = [] := by
  obtain ⟨htrace, hfinish⟩ := run_first_frame (hframes f List.mem_cons_self) hstart
  obtain ⟨htrace', hfinish'⟩ := run_frames fun g hg => hframes g (List.mem_cons_of_mem f hg)
  constructor
  · apply map_bytes_injective
    rw [List.map_map, Option.map_comp_map, ← Cut.seen_eq, h.trace_seen, List.flatMap_cons,
      Transducer.trace_append, htrace, hfinish, htrace', List.map_append, List.map_append,
      map_atLast, map_atLast, segmentSeen_append, List.map_flatMap, List.map_flatMap]
    congr 1
    apply List.flatMap_congr
    intro g _
    rw [map_atLast, map_atLast, segmentSeen_bytes]
  · rw [(h.finish _).buffer, List.flatMap_cons, Transducer.finish_append, hfinish, hfinish']

end Frames

section Outputs

variable {p : UT612ByteStreamParser} {pending : List UInt8} {f : Window} {frames : List Window}
  (h : Tracks p pending) (hframes : ∀ g ∈ f :: frames, g.Terminated)
  (hstart : pending = [] ∨ f.Unbroken)
include h hframes hstart

/-- The cuts of a run over frames the parser has locked on to. -/
theorem Tracks.lock_shown :
    (framer.outputs p ((f :: frames).flatMap Window.bytes)).map Cut.shown =
      (f, sizeToInt (UInt64.ofNat (pending.length + frameSize))) ::
        frames.map fun g => (g, (frameSize : Int)) := by
  rw [Transducer.outputs, ← List.reduceOption_map, (h.lock hframes hstart).1,
    List.reduceOption_append, reduceOption_atLast, reduceOption_flatMap_atLast,
    List.singleton_append]

theorem Tracks.lock_windows :
    (framer.outputs p ((f :: frames).flatMap Window.bytes)).map Cut.window = f :: frames := by
  have hmap := congrArg (List.map Prod.fst) (h.lock_shown hframes hstart)
  rw [List.map_map, List.map_cons, List.map_map] at hmap
  exact hmap.trans (congrArg (List.cons f) (List.map_id frames))

theorem Tracks.lock_trace :
    (framer.trace p ((f :: frames).flatMap Window.bytes)).map (Option.map Cut.window) =
      (f :: frames).flatMap atLast := by
  have hmap := congrArg (List.map (Option.map Prod.fst)) (h.lock hframes hstart).1
  rw [List.map_map, Option.map_comp_map, List.map_append, map_atLast, List.map_flatMap] at hmap
  rw [List.flatMap_cons]
  exact hmap

theorem Tracks.lock_errors :
    ((framer.outputs p ((f :: frames).flatMap Window.bytes)).map Cut.error).flatten =
      alignmentError (sizeToInt (UInt64.ofNat (pending.length + frameSize))) ++
        ((f :: frames).map Window.rejection).flatten := by
  have hrest : (frames.map fun g => (g, (frameSize : Int))).map
      (fun shown => alignmentError shown.2 ++ shown.1.rejection) = frames.map Window.rejection := by
    rw [List.map_map]
    apply List.map_congr_left
    intro g _
    have haligned : alignmentError frameSize = [] := (alignmentError_eq_nil_iff _).mpr rfl
    rw [Function.comp_apply, haligned, List.nil_append]
  have herror : Cut.error = (fun shown => alignmentError shown.2 ++ shown.1.rejection) ∘ Cut.shown :=
    rfl
  rw [herror, ← List.map_map, h.lock_shown hframes hstart, List.map_cons, hrest, List.flatten_cons,
    List.map_cons, List.flatten_cons, List.append_assoc]

end Outputs

/-- **Lock and containment.** From any state a fresh parser can get into, frames with any contents
that end with a carriage return and a line feed are cut one by one at their last bytes, if nothing
is pending or the first of them is unbroken. Each prints its line, with the digits of its number, on
from the frame count, and is rejected or not on its own; only the first can have a distance other
than 17. -/
theorem processBytes_lock (clock : Clock) (doTimestamp : Bool) (history : List UInt8)
    (con₀ con : Console) (p : UT612ByteStreamParser)
    (hreach : processBytes clock.now history (freshParser doTimestamp) con₀ = .ok (p, con))
    (frames : List Window) (hframes : ∀ f ∈ frames, f.Terminated)
    (hstart : p.buffer = [] ∨ ∃ f, frames.head? = some f ∧ f.Unbroken) :
    ∃ p' con' distance,
      processBytes clock.now (frames.flatMap Window.bytes) p con = .ok (p', con') ∧
      (framer.trace p (frames.flatMap Window.bytes)).map (Option.map Cut.window) =
        frames.flatMap atLast ∧
      con'.cout = con.cout ++
        (frames.mapIdx fun i f =>
          Nat.toDigits 10 (p.frameCount + UInt64.ofNat i).toNat ++ "\t".toList ++
            stamp clock doTimestamp (con.clockReads + i) ++ f.values ++ "\n".toList).flatten ∧
      con'.cerr = con.cerr ++ alignmentError distance ++ (frames.map Window.rejection).flatten ∧
      (p.buffer = [] → alignmentError distance = []) ∧
      p'.buffer = [] := by
  have htracks := tracks_of_processBytes hreach
  have htimestamp := doTimestamp_of_processBytes hreach
  cases frames with
  | nil =>
      have hbuffer : p.buffer = [] := hstart.resolve_right (by simp)
      have haligned : alignmentError frameSize = [] := (alignmentError_eq_nil_iff _).mpr rfl
      refine ⟨p, con, frameSize, rfl, rfl, ?_, ?_, fun _ => haligned, hbuffer⟩
      · exact (List.append_nil _).symm
      · rw [haligned, List.append_nil]
        exact (List.append_nil _).symm
  | cons f frames =>
      have hstart : (segmenter FrameEnd).finish [] history = [] ∨ f.Unbroken := by
        simpa [htracks.buffer] using hstart
      refine ⟨_, _, sizeToInt (UInt64.ofNat (((segmenter FrameEnd).finish [] history).length +
        frameSize)), processBytes_eq clock _ p con, htracks.lock_trace hframes hstart, ?_, ?_, ?_,
        (htracks.lock hframes hstart).2⟩
      · rw [foldl_emit, htimestamp, cutLines_outputs clock doTimestamp con.clockReads
          (htracks.lock_windows hframes hstart)]
        rfl
      · rw [foldl_emit, htracks.lock_errors hframes hstart, List.append_assoc]
      · intro h
        rw [← htracks.buffer, h, alignmentError_eq_nil_iff]
        exact sizeToInt_ofNat (by decide)

theorem unbroken_phaseFrame : phaseFrame.Unbroken := ⟨by decide, by decide⟩

/-- After a frame and a stray byte, a frame, one with a delimiter inside it and a damaged one. -/
theorem processBytes_lock_stray :
    ∃ p con p' con' distance,
      processBytes Clock.stopped.now (phaseFrame.bytes ++ [0x41]) (freshParser false) .empty =
        .ok (p, con) ∧
      p.buffer = [0x41] ∧
      processBytes Clock.stopped.now
        ([phaseFrame, delimiterFrame, damagedFrame].flatMap Window.bytes) p con = .ok (p', con') ∧
      (framer.trace p ([phaseFrame, delimiterFrame, damagedFrame].flatMap Window.bytes)).map
          (Option.map Cut.window) =
        atLast phaseFrame ++ atLast delimiterFrame ++ atLast damagedFrame ∧
      con'.cout = con.cout ++ ("1\tRs\t0.5002\tkOhm\ttheta\t-0.1\tDeg\t100KHz\n" ++
        "2\tRs\t0.3338\tkOhm\ttheta\t-0.1\tDeg\t100KHz\n" ++ "3\t\n").toList ∧
      con'.cerr = con.cerr ++ alignmentError distance ++
        ([phaseFrame, delimiterFrame, damagedFrame].map Window.rejection).flatten ∧
      p'.buffer = [] := by
  have hreach := processBytes_eq Clock.stopped (phaseFrame.bytes ++ [0x41]) (freshParser false) .empty
  obtain ⟨p', con', distance, hrun, htrace, hcout, hcerr, -, hbuffer⟩ :=
    processBytes_lock Clock.stopped false (phaseFrame.bytes ++ [0x41]) .empty _ _ hreach
      [phaseFrame, delimiterFrame, damagedFrame] (by decide)
      (.inr ⟨phaseFrame, rfl, unbroken_phaseFrame⟩)
  refine ⟨_, _, p', con', distance, hreach, ?_, hrun, htrace,
    hcout.trans (congrArg (List.append _) ?_), hcerr, hbuffer⟩
  · decide +kernel
  · decide +kernel

end UT612
