import IngressGuard.Frame.Filter

/-!
# Reading frames

`Gives` describes a computation that reads from a frame: how it ends, and that all its reads are
inside the frame.  The rules follow the ways in which such computations are put together.  What a
read gives is stated in terms of the bytes from its offset on, which is how packets are decoded.
-/

namespace IngressGuard

namespace FrameFilter

variable {α β : Type} {frame : Frame} {r : FrameReader α} {next : α → FrameReader β}

/-- All reads are inside the frame. -/
def InBounds (frame : Frame) (reads : List Span) : Prop :=
  ∀ span ∈ reads, span.offset + span.size ≤ frame.length

/-- A computation ends with a given result, or gives up, and does not read past the end. -/
def Gives (r : FrameReader α) (frame : Frame) (result : Option α) : Prop :=
  ∀ reads, InBounds frame reads →
    ∃ reads', (r frame).run reads = (result, reads') ∧ InBounds frame reads'

/-! ## Rules -/

theorem gives_pure (a : α) : Gives (pure a) frame (some a) :=
  fun reads h => ⟨reads, rfl, h⟩

theorem gives_failure : Gives (failure : FrameReader α) frame none :=
  fun reads h => ⟨reads, rfl, h⟩

theorem run_bind_some {a : α} {reads reads' : List Span} (next : α → FrameReader β)
    (h : (r frame).run reads = (some a, reads')) :
    ((r >>= next) frame).run reads = (next a frame).run reads' := by
  have h' : r frame reads = (some a, reads') := h
  simp only [bind, ReaderT.bind, OptionT.bind, OptionT.run, StateT.bind, OptionT.mk, h']

theorem run_bind_none {reads reads' : List Span} (next : α → FrameReader β)
    (h : (r frame).run reads = (none, reads')) :
    ((r >>= next) frame).run reads = (none, reads') := by
  have h' : r frame reads = (none, reads') := h
  simp only [bind, ReaderT.bind, OptionT.bind, OptionT.run, StateT.bind, OptionT.mk, h']
  rfl

theorem Gives.bind {a : α} {result : Option β} (h : Gives r frame (some a))
    (hnext : Gives (next a) frame result) : Gives (r >>= next) frame result := by
  intro reads hreads
  obtain ⟨reads', hrun, hreads'⟩ := h reads hreads
  obtain ⟨reads'', hrun', hreads''⟩ := hnext reads' hreads'
  refine ⟨reads'', ?_, hreads''⟩
  rw [run_bind_some next hrun]
  exact hrun'

theorem Gives.bind_none (h : Gives r frame none) : Gives (r >>= next) frame none := by
  intro reads hreads
  obtain ⟨reads', hrun, hreads'⟩ := h reads hreads
  exact ⟨reads', run_bind_none next hrun, hreads'⟩

/-! ## Reads -/

theorem gives_peek (offset size : Nat) :
    Gives (peek offset size) frame
      (some (if offset + size ≤ frame.length then some ((frame.drop offset).take size)
        else none)) := by
  intro reads hreads
  have hframe : ((ReaderT.read : FrameReader Frame) frame).run reads = (some frame, reads) := rfl
  unfold peek
  rw [run_bind_some _ hframe]
  by_cases h : offset + size ≤ frame.length
  · refine ⟨⟨offset, size⟩ :: reads, ?_, ?_⟩
    · simp only [h, if_true]
      rfl
    · intro span hspan
      rcases List.mem_cons.mp hspan with rfl | hspan
      · exact h
      · exact hreads span hspan
  · refine ⟨reads, ?_, hreads⟩
    simp only [h, if_false]
    rfl

theorem gives_read (offset size : Nat) :
    Gives (read offset size) frame
      (if offset + size ≤ frame.length then some ((frame.drop offset).take size) else none) := by
  have hpeek : Gives (peek offset size) frame _ := gives_peek offset size
  by_cases h : offset + size ≤ frame.length
  · rw [if_pos h] at hpeek ⊢
    exact hpeek.bind (gives_pure _)
  · rw [if_neg h] at hpeek ⊢
    exact hpeek.bind gives_failure

theorem gives_readWord {offset : Nat} {high low : UInt8} {rest : List UInt8}
    (h : frame.drop offset = high :: low :: rest) :
    Gives (readWord offset) frame (some (word high low)) := by
  have hlength := congrArg List.length h
  rw [List.length_drop, List.length_cons, List.length_cons] at hlength
  have hread : Gives (read offset 2) frame _ := gives_read offset 2
  rw [if_pos (by omega), h] at hread
  exact hread.bind (gives_pure _)

theorem gives_readWord_none {offset : Nat} (h : (frame.drop offset).length < 2) :
    Gives (readWord offset) frame none := by
  rw [List.length_drop] at h
  have hread : Gives (read offset 2) frame _ := gives_read offset 2
  rw [if_neg (by omega)] at hread
  exact hread.bind_none

/-! ## Tags -/

/-- Skipping tags ends at the content that decoding finds behind them, or gives up where decoding
does. -/
theorem gives_skipTags (frame : Frame) (tags : Nat) (kind : UInt16) (offset : Nat) :
    ∃ result, Gives (skipTags tags kind offset) frame result ∧
      Frame.untagged tags kind (frame.drop offset) =
        result.map fun (kind, offset) => (kind, frame.drop offset) := by
  induction tags generalizing kind offset with
  | zero => exact ⟨some (kind, offset), gives_pure _, rfl⟩
  | succ tags ih =>
    unfold skipTags Frame.untagged
    by_cases htag : EtherType.isTag kind = true
    · rw [if_pos htag, if_pos htag]
      -- The type behind the tag is in its third and fourth byte.
      have hdrop : frame.drop (offset + 2) = (frame.drop offset).drop 2 :=
        List.drop_drop.symm
      have hrest : frame.drop (offset + 4) = (frame.drop offset).drop 4 :=
        List.drop_drop.symm
      rcases hcontent : frame.drop offset with
        _ | ⟨b₁, _ | ⟨b₂, _ | ⟨high, _ | ⟨low, rest⟩⟩⟩⟩
      case cons.cons.cons.cons =>
        obtain ⟨result, hgives, huntagged⟩ := ih (word high low) (offset + 4)
        rw [hrest, hcontent] at huntagged
        rw [hcontent] at hdrop
        exact ⟨result, (gives_readWord hdrop).bind hgives, huntagged⟩
      all_goals
        refine ⟨none, (gives_readWord_none ?_).bind_none, rfl⟩
        rw [hdrop, hcontent]
        simp
    · rw [if_neg htag, if_neg htag]
      exact ⟨some (kind, offset), gives_pure _, rfl⟩

end FrameFilter

end IngressGuard
