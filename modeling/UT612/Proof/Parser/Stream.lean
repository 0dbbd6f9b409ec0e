import UT612.Proof.Parser.Lock

/-!
# Joining a stream of frames

A meter sends frame after frame, and the parser starts to read somewhere inside the first of them. A
window is then either a whole frame or made of the end of one frame and the beginning of the next,
and which of them is cut depends on the delimiters inside the frames.
-/

namespace UT612

open Segmentation Delimited

/-- A frame that ends with a carriage return and a line feed, and that has a row. -/
structure Window.Accepted (w : Window) : Prop where
  terminated : w.Terminated
  row : ∃ values, w.row = .ok values

theorem accepted_phaseFrame : phaseFrame.Accepted :=
  ⟨by decide, "Rs\t0.5002\tkOhm\ttheta\t-0.1\tDeg\t100KHz".toList, by decide +kernel⟩

theorem accepted_delimiterFrame : delimiterFrame.Accepted :=
  ⟨by decide, "Rs\t0.3338\tkOhm\ttheta\t-0.1\tDeg\t100KHz".toList, by decide +kernel⟩

/-- The end of one frame and the first `e` bytes of the next. -/
def straddle (before f : Window) (e : Nat) (h : e ≤ frameSize) : Window where
  bytes := before.bytes.drop e ++ f.bytes.take e
  length_eq := by
    rw [List.length_append, List.length_drop, List.length_take, before.length_eq, f.length_eq]
    omega

theorem straddle_of_eq {before f : Window} {e : Nat} (h : e ≤ frameSize) (hend : e = frameSize) :
    straddle before f e h = f := by
  subst hend
  ext1
  show before.bytes.drop frameSize ++ f.bytes.take frameSize = f.bytes
  rw [List.drop_of_length_le before.length_eq.le, List.take_of_length_le f.length_eq.le,
    List.nil_append]

/-- What is left to read of a stream of frames after its first `k` bytes. -/
def joined (frames : List Window) (k : Nat) : List UInt8 := (frames.flatMap Window.bytes).drop k

/-- The last bytes of a segment. -/
def lastBytes (s : List UInt8) : List UInt8 := s.drop (s.length - frameSize)

theorem lastBytes_straddle {before f : Window} {s e : Nat} (hse : s ≤ e) (he : e ≤ frameSize) :
    lastBytes (before.bytes.drop s ++ f.bytes.take e) = (straddle before f e he).bytes := by
  have hlength : (before.bytes.drop s ++ f.bytes.take e).length - frameSize = e - s := by
    rw [List.length_append, List.length_drop, List.length_take, before.length_eq, f.length_eq]
    omega
  have hdrop : (before.bytes.drop s).length = frameSize - s := by
    rw [List.length_drop, before.length_eq]
  rw [lastBytes, hlength, List.drop_append_of_le_length (by omega), List.drop_drop, straddle,
    Nat.add_sub_cancel' hse]

section Tracks

variable {p : UT612ByteStreamParser} {pending : List UInt8}

theorem Tracks.trace_bytes (h : Tracks p pending) (bytes : List UInt8) :
    (framer.trace p bytes).map (Option.map fun c => c.window.bytes) =
      ((segmenter FrameEnd).trace pending bytes).map (Option.map lastBytes) := by
  have hmap := congrArg (List.map (Option.map Prod.fst)) (h.trace_seen bytes)
  rw [List.map_map, List.map_map, Option.map_comp_map, Option.map_comp_map] at hmap
  exact hmap

/-- What is cut at a byte of a stream, after the rest of the frame before it. -/
theorem Tracks.trace_frames {prev f : Window} {fs : List Window} {s : Nat}
    (h : Tracks p (prev.bytes.drop s)) (hprev : prev.Terminated) (hfs : ∀ g ∈ fs, g.Terminated)
    (hs : s ≤ frameSize) {r j : Nat} (hr : r < frameSize) (hf : fs[j]? = some f) :
    ∃ before, (prev :: fs)[j]? = some before ∧
      (framer.trace p (fs.flatMap Window.bytes))[frameSize * j + r]?.map
          (Option.map Cut.window) =
        some (if r + 1 = nextEnd 0x0d 0x0a f.bytes
            (phase 0x0d 0x0a s ((fs.take j).map Window.bytes)) then
          some (straddle before f (r + 1) hr) else none) := by
  have hwords : ∀ g ∈ fs.map Window.bytes, IsWord frameSize 0x0d 0x0a g := by
    intro g hg
    obtain ⟨w, hw, rfl⟩ := List.mem_map.mp hg
    exact (hfs w hw).isWord
  have hf' : (fs.map Window.bytes)[j]? = some f.bytes := by rw [List.getElem?_map, hf, Option.map_some]
  obtain ⟨bytes, hbytes, htrace⟩ :=
    getElem?_trace_stream (by decide) hprev.isWord hwords hs hr hf'
  rw [← List.map_cons, List.getElem?_map] at hbytes
  obtain ⟨before, hbefore, rfl⟩ := Option.map_eq_some_iff.mp hbytes
  refine ⟨before, hbefore, ?_⟩
  have hplace := congrArg (fun entries => entries[frameSize * j + r]?)
    (h.trace_bytes (fs.flatMap Window.bytes))
  simp only [List.getElem?_map] at hplace
  rw [flatMap_bytes, htrace, ← List.map_take] at hplace
  apply Option.map_injective (Option.map_injective fun _ _ => Window.ext)
  rw [Option.map_map, Option.map_comp_map]
  refine hplace.trans ?_
  have hphase : phase 0x0d 0x0a s ((fs.take j).map Window.bytes) ≤ frameSize := by
    apply phase_le _ hs
    intro g hg
    rw [List.map_take] at hg
    exact hwords g (List.mem_of_mem_take hg)
  have hle := ((hwords f.bytes (List.mem_of_getElem? hf')).nextEnd_mem hphase).1
  by_cases hend : r + 1 = nextEnd 0x0d 0x0a f.bytes
      (phase 0x0d 0x0a s ((fs.take j).map Window.bytes))
  · rw [if_pos hend, if_pos hend, Option.map_some, Option.map_some, Option.map_some,
      Option.map_some, lastBytes_straddle (hle.trans hend.ge) hr]
  · rw [if_neg hend, if_neg hend]
    rfl

/-- While the rest of the first frame is read, nothing is cut. -/
theorem Tracks.join (h : Tracks p []) (first : Window) (frames : List Window) {k : Nat} (hpos : 0 < k)
    (hk : k ≤ frameSize) :
    Tracks (framer.finish p (first.bytes.drop k)) (first.bytes.drop k) ∧
      framer.trace p (joined (first :: frames) k) =
        List.replicate (frameSize - k) none ++
          framer.trace (framer.finish p (first.bytes.drop k)) (frames.flatMap Window.bytes) := by
  have hlength : (first.bytes.drop k).length = frameSize - k := by
    rw [List.length_drop, first.length_eq]
  have hquiet : ∀ q, q <+: first.bytes.drop k → q ≠ [] → ¬ FrameEnd ([] ++ q) := by
    intro q hq _ hclosed
    have hle := hclosed.1.trans hq.length_le
    omega
  obtain ⟨htrace, hfinish⟩ := run_of_quiet hquiet
  have hjoined : joined (first :: frames) k = first.bytes.drop k ++ frames.flatMap Window.bytes := by
    rw [joined, List.flatMap_cons, List.drop_append_of_le_length (first.length_eq.symm ▸ hk)]
  have hnone : framer.trace p (first.bytes.drop k) = List.replicate (frameSize - k) none := by
    have hmap := h.trace_seen (first.bytes.drop k)
    rw [htrace, List.map_replicate, hlength, Option.map_none, List.eq_replicate_iff,
      List.length_map] at hmap
    rw [List.eq_replicate_iff]
    refine ⟨hmap.1, fun entry hentry => ?_⟩
    exact Option.map_eq_none_iff.mp (hmap.2 _ (List.mem_map_of_mem hentry))
  constructor
  · have htracks := h.finish (first.bytes.drop k)
    rwa [hfinish, List.nil_append] at htracks
  · rw [hjoined, Transducer.trace_append, hnone]

/-- A reader that joins between two frames cuts each at its end. -/
theorem Tracks.cut_at_end_of_zero {frames : List Window} {f : Window} (h : Tracks p [])
    (hframes : ∀ g ∈ frames, g.Terminated) {r j : Nat} (hr : r < frameSize)
    (hf : frames[j]? = some f) :
    (framer.trace p (joined frames 0))[frameSize * j + r]?.map (Option.map Cut.window) =
      some (if r + 1 = frameSize then some f else none) := by
  have hterm := hframes f (List.mem_of_getElem? hf)
  have htracks : Tracks p (f.bytes.drop frameSize) := by
    rwa [List.drop_of_length_le f.length_eq.le]
  obtain ⟨before, -, htrace⟩ := htracks.trace_frames hterm hframes le_rfl hr hf
  have hwords : ∀ g ∈ (frames.take j).map Window.bytes, IsWord frameSize 0x0d 0x0a g := by
    intro g hg
    obtain ⟨w, hw, rfl⟩ := List.mem_map.mp hg
    exact (hframes w (List.mem_of_mem_take hw)).isWord
  rw [joined, List.drop_zero, htrace, phase_self hwords, hterm.isWord.nextEnd_self]
  by_cases hend : r + 1 = frameSize
  · rw [if_pos hend, if_pos hend, straddle_of_eq hr hend]
  · rw [if_neg hend, if_neg hend]

/-- A reader that joins inside a frame cuts the frames after it where its phase says. -/
theorem Tracks.cut_of_pos {first f : Window} {fs : List Window} (h : Tracks p [])
    (hframes : ∀ g ∈ first :: fs, g.Terminated) {k r j : Nat} (hpos : 0 < k) (hk : k ≤ frameSize)
    (hr : r < frameSize) (hf : fs[j]? = some f) :
    ∃ before, (first :: fs)[j]? = some before ∧
      (framer.trace p (joined (first :: fs) k))[frameSize - k + (frameSize * j + r)]?.map
          (Option.map Cut.window) =
        some (if r + 1 = nextEnd 0x0d 0x0a f.bytes
            (phase 0x0d 0x0a k ((fs.take j).map Window.bytes)) then
          some (straddle before f (r + 1) hr) else none) := by
  obtain ⟨htracks, htrace⟩ := h.join first fs hpos hk
  obtain ⟨before, hbefore, hcut⟩ := htracks.trace_frames (hframes first List.mem_cons_self)
    (fun g hg => hframes g (List.mem_cons_of_mem first hg)) hk hr hf
  refine ⟨before, hbefore, ?_⟩
  rw [htrace, List.getElem?_append_right (by rw [List.length_replicate]; omega),
    List.length_replicate, Nat.add_sub_cancel_left, hcut]

end Tracks

end UT612
