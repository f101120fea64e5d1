-- Texts with nested brackets, over any alphabet. A bracket that is closed
-- takes its text out of the text around it, so what stays is the text
-- outside, the brackets still open, and the closed ones in closing order.
import Mathlib.Data.List.Basic

namespace brackets

variable {α : Type*} [DecidableEq α]

/-! ## The scan -/

/-- A text read up to some point: the text outside of every bracket, the
open brackets with the text they hold so far, innermost first, and the
closed brackets in the order of their closing. -/
structure Scan (α : Type*) where
  outer : List α := []
  frames : List (List α) := []
  closed : List (List α) := []
  deriving DecidableEq

/-- A symbol lands in the innermost open bracket, or outside. -/
def Scan.put (s : Scan α) (x : α) : Scan α :=
  match s.frames with
  | [] => { s with outer := s.outer ++ [x] }
  | f :: fs => { s with frames := (f ++ [x]) :: fs }

/-- A closing symbol with no open bracket is a symbol like any other. -/
def Scan.step (op cl : α) (s : Scan α) (x : α) : Scan α :=
  if x = op then { s with frames := [] :: s.frames }
  else if x = cl then
    match s.frames with
    | [] => s.put x
    | f :: fs => { s with frames := fs, closed := s.closed ++ [f] }
  else s.put x

def Scan.read (op cl : α) (s : Scan α) (t : List α) : Scan α := t.foldl (Scan.step op cl) s

def scan (op cl : α) (t : List α) : Scan α := Scan.read op cl {} t

/-- The text with its closed brackets taken out. -/
def Scan.rest (op : α) (s : Scan α) : List α :=
  s.outer ++ (s.frames.reverse.map (op :: ·)).flatten

variable {op cl : α}

@[simp] theorem read_nil (s : Scan α) : s.read op cl [] = s := rfl

@[simp] theorem read_cons (s : Scan α) (x : α) (t : List α) :
    s.read op cl (x :: t) = (s.step op cl x).read op cl t := rfl

theorem read_append (s : Scan α) (t u : List α) :
    s.read op cl (t ++ u) = (s.read op cl t).read op cl u := by
  simp [Scan.read, List.foldl_append]

/-! ## What came before changes nothing -/

/-- The scan with more text outside and more closed brackets before it. -/
def Scan.after (l : List α) (c : List (List α)) (s : Scan α) : Scan α :=
  { s with outer := l ++ s.outer, closed := c ++ s.closed }

theorem step_after (l : List α) (c : List (List α)) (s : Scan α) (x : α) :
    (s.after l c).step op cl x = (s.step op cl x).after l c := by
  rcases s with ⟨o, fs, cs⟩
  unfold Scan.step Scan.after Scan.put
  rcases fs with _ | ⟨f, fs⟩
  · split
    · rfl
    · split <;> simp
  · split
    · rfl
    · split <;> simp

theorem read_after (l : List α) (c : List (List α)) (s : Scan α) (t : List α) :
    (s.after l c).read op cl t = (s.read op cl t).after l c := by
  induction t generalizing s with
  | nil => rfl
  | cons x t ih => rw [read_cons, read_cons, step_after, ih]

omit [DecidableEq α] in
theorem rest_after (l : List α) (c : List (List α)) (s : Scan α) :
    (s.after l c).rest op = l ++ s.rest op := by
  simp [Scan.rest, Scan.after]

/-! ## Reading without a closing -/

theorem step_no_close {s : Scan α} {x : α} (h : x ≠ cl) :
    (s.step op cl x).closed = s.closed := by
  unfold Scan.step Scan.put
  rw [if_neg h]
  rcases s.frames with _ | ⟨f, fs⟩ <;> split <;> rfl

theorem read_no_close (s : Scan α) {t : List α} (h : cl ∉ t) :
    (s.read op cl t).closed = s.closed := by
  induction t generalizing s with
  | nil => rfl
  | cons x t ih =>
    have hx : x ≠ cl := fun e => h (by simp [e])
    have ht : cl ∉ t := fun hm => h (List.mem_cons_of_mem x hm)
    rw [read_cons, ih _ ht, step_no_close hx]

variable (op cl) in
theorem step_closed_or_rest (s : Scan α) (x : α) :
    (s.step op cl x).closed.length = s.closed.length + 1 ∨
      ((s.step op cl x).closed = s.closed ∧ (s.step op cl x).rest op = s.rest op ++ [x]) := by
  unfold Scan.step Scan.put Scan.rest
  rcases s.frames with _ | ⟨f, fs⟩
  · right
    split
    · rename_i h; simp [h]
    · split <;> simp
  · split
    · rename_i h; right; simp [h]
    · split
      · left; simp
      · right; simp

variable (op cl) in
theorem closed_le (s : Scan α) (t : List α) :
    s.closed.length ≤ (s.read op cl t).closed.length := by
  induction t generalizing s with
  | nil => simp
  | cons x t ih =>
    have h1 := ih (s.step op cl x)
    have h2 : s.closed.length ≤ (s.step op cl x).closed.length := by
      rcases step_closed_or_rest op cl s x with h | ⟨h, _⟩
      · omega
      · exact Nat.le_of_eq (congrArg List.length h.symm)
    exact Nat.le_trans h2 h1

/-- When nothing is closed, the whole text stays. -/
theorem rest_of_no_close {s : Scan α} {t : List α}
    (h : (s.read op cl t).closed = s.closed) : (s.read op cl t).rest op = s.rest op ++ t := by
  induction t generalizing s with
  | nil => simp
  | cons x t ih =>
    rw [read_cons] at h ⊢
    have hle := closed_le op cl (s.step op cl x) t
    rw [h] at hle
    rcases step_closed_or_rest op cl s x with hx | ⟨hx, hr⟩
    · omega
    · rw [ih (by rw [h, hx]), hr]
      simp

theorem scan_rest_of_no_close {t : List α} (h : (scan op cl t).closed = []) :
    (scan op cl t).rest op = t := by
  have := rest_of_no_close (s := ({} : Scan α)) h
  simpa [Scan.rest, scan] using this

/-- A text without brackets lands in the innermost open bracket. -/
theorem read_plain (s : Scan α) (f : List α) (fs : List (List α)) {t : List α}
    (hop : op ∉ t) (hcl : cl ∉ t) (hs : s.frames = f :: fs) :
    s.read op cl t = { s with frames := (f ++ t) :: fs } := by
  induction t generalizing s f with
  | nil => simp [← hs]
  | cons x t ih =>
    simp only [List.mem_cons, not_or] at hop hcl
    have hstep : s.step op cl x = { s with frames := (f ++ [x]) :: fs } := by
      simp [Scan.step, Scan.put, hs, Ne.symm hop.1, Ne.symm hcl.1]
    rw [read_cons, hstep, ih _ (f ++ [x]) hop.2 hcl.2 rfl]
    simp

/-- A text without an opening symbol, read outside, stays outside. -/
theorem read_outer (s : Scan α) {t : List α} (hop : op ∉ t) (hs : s.frames = []) :
    s.read op cl t = { s with outer := s.outer ++ t } := by
  induction t generalizing s with
  | nil => simp
  | cons x t ih =>
    simp only [List.mem_cons, not_or] at hop
    have hstep : s.step op cl x = { s with outer := s.outer ++ [x] } := by
      unfold Scan.step Scan.put
      simp [hs, Ne.symm hop.1]
    rw [read_cons, hstep, ih { s with outer := s.outer ++ [x] } hop.2 hs]
    simp

/-- One bracket, opened and closed with plain text inside. -/
theorem read_bracket (s : Scan α) {m : List α} (hne : op ≠ cl) (hop : op ∉ m) (hcl : cl ∉ m) :
    s.read op cl (op :: m ++ [cl]) = { s with closed := s.closed ++ [m] } := by
  have hopen : s.step op cl op = { s with frames := [] :: s.frames } := by simp [Scan.step]
  rw [List.cons_append, read_cons, hopen, read_append, read_plain _ [] s.frames hop hcl rfl]
  simp [Scan.step, Ne.symm hne]

/-- A bracket with plain text inside can be taken out of a text whose start
closes no bracket: it is the first one that the scan closes. -/
theorem scan_remove {a m q : List α} (hne : op ≠ cl) (hop : op ∉ m) (hcl : cl ∉ m)
    (ha : (scan op cl a).closed = []) :
    scan op cl (a ++ (op :: m ++ [cl]) ++ q) = (scan op cl (a ++ q)).after [] [m] := by
  unfold scan at *
  have hm : Scan.read op cl {} (a ++ (op :: m ++ [cl])) =
      (Scan.read op cl {} a).after [] [m] := by
    rw [read_append, read_bracket _ hne hop hcl]
    simp [Scan.after, ha]
  rw [read_append, hm, read_append, read_after]

/-! ## Reading the rest again -/

/-- The text of a scan holds no symbol that a new scan would take apart. -/
structure Clean (op cl : α) (s : Scan α) : Prop where
  outer_op : op ∉ s.outer
  frames_op : ∀ f ∈ s.frames, op ∉ f
  frames_cl : ∀ f ∈ s.frames, cl ∉ f

theorem clean_step {s : Scan α} (x : α) (h : Clean op cl s) : Clean op cl (s.step op cl x) := by
  obtain ⟨h1, h2, h3⟩ := h
  unfold Scan.step Scan.put
  by_cases hop : x = op
  · rw [if_pos hop]
    refine ⟨h1, ?_, ?_⟩ <;> (intro f hf; simp only [List.mem_cons] at hf; rcases hf with rfl | hf)
    · simp
    · exact h2 f hf
    · simp
    · exact h3 f hf
  rw [if_neg hop]
  rcases hs : s.frames with _ | ⟨f, fs⟩
  · have hout : op ∉ s.outer ++ [x] := by
      simp only [List.mem_append, List.mem_singleton, not_or]
      exact ⟨h1, Ne.symm hop⟩
    split <;> exact ⟨hout, by simp, by simp⟩
  · rw [hs] at h2 h3
    by_cases hcl : x = cl
    · rw [if_pos hcl]
      exact ⟨h1, fun g hg => h2 g (List.mem_cons_of_mem f hg),
        fun g hg => h3 g (List.mem_cons_of_mem f hg)⟩
    · rw [if_neg hcl]
      refine ⟨h1, ?_, ?_⟩ <;> (intro g hg; simp only [List.mem_cons] at hg; rcases hg with rfl | hg)
      · simp [h2 f (by simp), Ne.symm hop]
      · exact h2 g (List.mem_cons_of_mem f hg)
      · simp [h3 f (by simp), Ne.symm hcl]
      · exact h3 g (List.mem_cons_of_mem f hg)

theorem clean_read {s : Scan α} (t : List α) (h : Clean op cl s) :
    Clean op cl (s.read op cl t) := by
  induction t generalizing s with
  | nil => exact h
  | cons x t ih => exact ih (clean_step x h)

theorem clean_scan (t : List α) : Clean op cl (scan op cl t) :=
  clean_read t ⟨by simp, by simp, by simp⟩

/-- Open brackets read again are open again, on top of those that were. -/
theorem read_frames (s : Scan α) (fs : List (List α)) (hop : ∀ f ∈ fs, op ∉ f)
    (hcl : ∀ f ∈ fs, cl ∉ f) :
    s.read op cl (fs.map (op :: ·)).flatten = { s with frames := fs.reverse ++ s.frames } := by
  induction fs generalizing s with
  | nil => simp
  | cons f fs ih =>
    have hopen : s.step op cl op = { s with frames := [] :: s.frames } := by simp [Scan.step]
    rw [List.map_cons, List.flatten_cons, List.cons_append, read_cons, hopen, read_append,
      read_plain _ [] s.frames (hop f (by simp)) (hcl f (by simp)) rfl,
      ih _ (fun g hg => hop g (List.mem_cons_of_mem f hg))
        (fun g hg => hcl g (List.mem_cons_of_mem f hg))]
    simp

/-- The rest of a text scans to the state of the whole text, with nothing
closed: a closed bracket leaves no trace. -/
theorem scan_rest {s : Scan α} (h : Clean op cl s) :
    scan op cl (s.rest op) = { s with closed := [] } := by
  unfold scan Scan.rest
  rw [read_append, read_outer _ h.outer_op rfl,
    read_frames _ _ (fun f hf => h.frames_op f (List.mem_reverse.mp hf))
      (fun f hf => h.frames_cl f (List.mem_reverse.mp hf))]
  simp

/-! ## Brackets closed before a border -/

/-- Read at some depth, every bracket is closed before the next border and
before the end of the text. -/
def Closed (op cl border : α) : Nat → List α → Prop
  | depth, [] => depth = 0
  | depth, x :: xs =>
    if x = op then Closed op cl border (depth + 1) xs
    else if x = cl then Closed op cl border (depth - 1) xs
    else if x = border then depth = 0 ∧ Closed op cl border depth xs
    else Closed op cl border depth xs

instance Closed.decidable (op cl border : α) :
    ∀ (depth : Nat) (t : List α), Decidable (Closed op cl border depth t)
  | depth, [] => inferInstanceAs (Decidable (depth = 0))
  | depth, x :: xs =>
    have := Closed.decidable op cl border (depth + 1) xs
    have := Closed.decidable op cl border (depth - 1) xs
    have := Closed.decidable op cl border depth xs
    inferInstanceAs (Decidable (if x = op then _ else if x = cl then _ else if x = border
      then depth = 0 ∧ _ else _))

/-- No open bracket holds a border. -/
def Sealed (border : α) (s : Scan α) : Prop := ∀ f ∈ s.frames, border ∉ f

/-- A part of a text with closed brackets leaves no border in an open
bracket, and what follows is closed at the depth that is reached. -/
theorem sealed_read {border : α} {s : Scan α} {p q : List α}
    (hs : Sealed border s) (h : Closed op cl border s.frames.length (p ++ q)) :
    Sealed border (s.read op cl p) ∧
      Closed op cl border (s.read op cl p).frames.length q := by
  induction p generalizing s with
  | nil => exact ⟨hs, h⟩
  | cons x p ih =>
    rw [read_cons]
    unfold Sealed at hs
    rw [List.cons_append, Closed] at h
    apply ih
    · unfold Sealed Scan.step Scan.put
      by_cases hop : x = op
      · simp only [hop, if_true, List.mem_cons]
        rintro f (rfl | hf)
        · simp
        · exact hs f hf
      rw [if_neg hop] at h ⊢
      rcases hf : s.frames with _ | ⟨f, fs⟩
      · split <;> simp
      · rw [hf] at hs h
        by_cases hcl : x = cl
        · rw [if_pos hcl]
          exact fun g hg => hs g (List.mem_cons_of_mem f hg)
        · rw [if_neg hcl] at h ⊢
          simp only [List.mem_cons]
          rintro g (rfl | hg)
          · by_cases hb : x = border
            · rw [if_pos hb] at h
              simp at h
            · simp [hs f (by simp), Ne.symm hb]
          · exact hs g (List.mem_cons_of_mem f hg)
    · unfold Scan.step Scan.put
      by_cases hop : x = op
      · simpa [hop] using h
      rw [if_neg hop] at h ⊢
      by_cases hcl : x = cl
      · rw [if_pos hcl] at h ⊢
        rcases hf : s.frames with _ | ⟨f, fs⟩ <;> simpa [hf] using h
      · rw [if_neg hcl] at h ⊢
        have hq : Closed op cl border s.frames.length (p ++ q) := by
          split at h
          · exact h.2
          · exact h
        rcases hf : s.frames with _ | ⟨f, fs⟩ <;> simpa [hf] using hq

/-- A whole text with closed brackets ends outside of every bracket. -/
theorem frames_of_closed {border : α} {t : List α} (h : Closed op cl border 0 t) :
    (scan op cl t).frames = [] := by
  have := (sealed_read (s := ({} : Scan α)) (p := t) (q := []) (by simp [Sealed])
    (by simpa using h)).2
  simpa [Closed, scan] using this

/-- What is left of such a text is the text outside of its brackets. -/
theorem rest_of_closed {border : α} {t : List α} (h : Closed op cl border 0 t) :
    (scan op cl t).rest op = (scan op cl t).outer := by
  simp [Scan.rest, frames_of_closed h]

/-! ## Texts put together -/

theorem closed_outer {border : α} {m t : List α} (hop : op ∉ m) :
    Closed op cl border 0 (m ++ t) ↔ Closed op cl border 0 t := by
  induction m with
  | nil => rfl
  | cons x m ih =>
    simp only [List.mem_cons, not_or] at hop
    rw [List.cons_append, Closed, if_neg (Ne.symm hop.1)]
    split
    · exact ih hop.2
    · split
      · rw [ih hop.2]
        exact and_iff_right rfl
      · exact ih hop.2

theorem closed_plain {border : α} {depth : Nat} {m t : List α} (hop : op ∉ m) (hcl : cl ∉ m)
    (hborder : border ∉ m) : Closed op cl border depth (m ++ t) ↔ Closed op cl border depth t := by
  induction m with
  | nil => rfl
  | cons x m ih =>
    simp only [List.mem_cons, not_or] at hop hcl hborder
    rw [List.cons_append, Closed, if_neg (Ne.symm hop.1), if_neg (Ne.symm hcl.1),
      if_neg (Ne.symm hborder.1)]
    exact ih hop.2 hcl.2 hborder.2

theorem closed_bracket {border : α} {m t : List α} (hne : op ≠ cl) (hop : op ∉ m) (hcl : cl ∉ m)
    (hborder : border ∉ m) :
    Closed op cl border 0 (op :: m ++ [cl] ++ t) ↔ Closed op cl border 0 t := by
  rw [List.append_assoc, List.cons_append, Closed, if_pos rfl, closed_plain hop hcl hborder,
    List.singleton_append, Closed, if_neg (Ne.symm hne), if_pos rfl]

end brackets
