-- SUMMARY: Frames cut from a stream: parsing a whole stream, and reading it chunk by chunk through a buffer.
import Mathlib.Data.List.Basic
import Mathlib.Data.Nat.Notation

/-!
# Framing

A framer cuts the first frame off a buffer, if the buffer holds all of it. It must
make progress and must not change its mind when more input arrives. From these two
facts alone, a reader that buffers chunks and takes one frame at a time sees the
frames of the whole stream, wherever the chunks were cut.
-/

namespace Framing

variable {α ρ : Type}

/-- Cut the first frame: its result and what follows it. -/
structure Framer (α ρ : Type) where
  next : List α → Option (ρ × List α)
  shrinks : ∀ buf r rest, next buf = some (r, rest) → rest.length < buf.length
  stable : ∀ buf r rest more, next buf = some (r, rest) → next (buf ++ more) = some (r, rest ++ more)

variable (F : Framer α ρ)

/-! ## Whole streams -/

/-- The results of all complete frames of a stream, and what is left over. -/
def parse (buf : List α) : List ρ × List α :=
  match _hnext : F.next buf with
  | none => ([], buf)
  | some (r, rest) => (r :: (parse rest).1, (parse rest).2)
termination_by buf.length
decreasing_by all_goals exact F.shrinks _ _ _ _hnext

variable {F} {buf rest : List α} {r : ρ}

theorem parse_of_none (h : F.next buf = none) : parse F buf = ([], buf) := by
  rw [parse]
  split
  · rfl
  · rename_i hsome
    cases h.symm.trans hsome

theorem parse_of_some (h : F.next buf = some (r, rest)) :
    parse F buf = (r :: (parse F rest).1, (parse F rest).2) := by
  rw [parse]
  split
  · rename_i hnone
    cases h.symm.trans hnone
  · rename_i hsome
    cases h.symm.trans hsome
    rfl

/-- A complete frame is cut off whatever follows it. -/
theorem parse_frame {frame : List α} (h : F.next frame = some (r, [])) (more : List α) :
    parse F (frame ++ more) = (r :: (parse F more).1, (parse F more).2) :=
  parse_of_some (F.stable _ _ _ more h)

/-- More input is parsed from where the frames so far end. -/
theorem parse_append (buf more : List α) :
    parse F (buf ++ more) =
      ((parse F buf).1 ++ (parse F ((parse F buf).2 ++ more)).1,
        (parse F ((parse F buf).2 ++ more)).2) := by
  fun_induction parse F buf with
  | case1 buf hnext => rfl
  | case2 buf r rest hnext ih =>
    rw [parse_of_some (F.stable _ _ _ more hnext), ih]
    rfl

/-- Complete frames, one after another, are all there is. -/
theorem parse_flatten {frames : List (List α)} {result : List α → ρ}
    (h : ∀ frame ∈ frames, F.next frame = some (result frame, [])) (hnil : F.next [] = none) :
    parse F frames.flatten = (frames.map result, []) := by
  induction frames with
  | nil => exact parse_of_none hnil
  | cons frame frames ih =>
    rw [List.flatten_cons, parse_frame (h frame List.mem_cons_self),
      ih fun f hf => h f (List.mem_cons_of_mem _ hf)]
    rfl

/-! ## Chunks -/

variable (F)

/-- One call of a buffering reader: cut a frame from the buffer, reading chunks until
there is one. The stream ends where the chunks do, or at an empty one. -/
def readNext : List (List α) → List α → Option ρ × List (List α) × List α
  | [], buf =>
    match F.next buf with
    | some (r, rest) => (some r, [], rest)
    | none => (none, [], buf)
  | chunk :: chunks, buf =>
    match F.next buf with
    | some (r, rest) => (some r, chunk :: chunks, rest)
    | none => if chunk.isEmpty then (none, chunks, buf) else readNext chunks (buf ++ chunk)

/-- What a reader has not yet handed out. -/
def ahead (chunks : List (List α)) (buf : List α) : List α := buf ++ chunks.flatten

variable {F} {chunks chunks' : List (List α)} {buf' : List α}

theorem ahead_cons (chunk : List α) (chunks : List (List α)) (buf : List α) :
    ahead (chunk :: chunks) buf = ahead chunks (buf ++ chunk) := by
  simp [ahead]

/-- A call that returns a frame has cut it off everything that lay ahead. -/
theorem next_ahead_of_readNext (h : readNext F chunks buf = (some r, chunks', buf')) :
    F.next (ahead chunks buf) = some (r, ahead chunks' buf') := by
  induction chunks generalizing buf with
  | nil =>
    unfold readNext at h
    split at h
    · rename_i hnext
      cases h
      exact F.stable _ _ _ _ hnext
    · cases h
  | cons chunk chunks ih =>
    unfold readNext at h
    split at h
    · rename_i hnext
      cases h
      exact F.stable _ _ _ _ hnext
    · split at h
      · cases h
      · rw [ahead_cons]
        exact ih h

/-- Chunks are read whole, so those that remain were there before. -/
theorem mem_of_readNext {result : Option ρ} (h : readNext F chunks buf = (result, chunks', buf')) :
    ∀ c ∈ chunks', c ∈ chunks := by
  intro c hc
  induction chunks generalizing buf with
  | nil =>
    unfold readNext at h
    split at h <;> · cases h; exact hc
  | cons chunk chunks ih =>
    unfold readNext at h
    split at h
    · cases h
      exact hc
    · split at h
      · cases h
        exact List.mem_cons_of_mem _ hc
      · exact List.mem_cons_of_mem _ (ih h)

/-- A call that meets the end of the stream leaves everything that lay ahead in the
buffer, and no frame in it. -/
theorem next_none_of_readNext (hchunks : ∀ c ∈ chunks, c ≠ [])
    (h : readNext F chunks buf = (none, chunks', buf')) :
    buf' = ahead chunks buf ∧ F.next (ahead chunks buf) = none := by
  induction chunks generalizing buf with
  | nil =>
    unfold readNext at h
    split at h
    · cases h
    · rename_i hnext
      cases h
      simpa [ahead] using hnext
  | cons chunk chunks ih =>
    unfold readNext at h
    split at h
    · cases h
    · split at h
      · rename_i hempty
        exact absurd (List.isEmpty_iff.mp hempty) (hchunks chunk List.mem_cons_self)
      · rw [ahead_cons]
        exact ih (fun c hc => hchunks c (List.mem_cons_of_mem _ hc)) h

end Framing
