-- The laws of the stream parser. The events are the annotations of the
-- stream in closing order, the data are its lines without annotations, and
-- it does not matter where the transport cuts the stream.
import DevconSpark.Brackets
import DevconSpark.Lines
import DevconSpark.CboxParser

open py_text brackets

namespace devcon_spark.cbox_parser

/-! ## The events of one buffer -/

theorem lazyGroup_some {p : Pattern} {t m q : Text} (h : lazyGroup p t = some (m, q)) :
    t = m ++ p.close :: q ∧ p.close ∉ m ∧ p.excluded ∉ m := by
  induction t generalizing m with
  | nil => simp [lazyGroup] at h
  | cons c cs ih =>
    simp only [lazyGroup] at h
    split at h
    · rename_i hc
      simp only [Option.some.injEq, Prod.mk.injEq] at h
      obtain ⟨rfl, rfl⟩ := h
      simp [hc]
    · split at h
      · simp at h
      · rename_i hcl hex
        simp only [Option.map_eq_some_iff, Prod.mk.injEq, Prod.exists] at h
        obtain ⟨m', q', hm, rfl, rfl⟩ := h
        obtain ⟨h1, h2, h3⟩ := ih hm
        simp [h1, h2, h3, Ne.symm hcl, Ne.symm hex]

/-- A close character that no group reaches has a start character before it. -/
theorem found_of_close {t : Text} (h : '>' ∈ t) :
    lazyGroup EVENT_PATTERN t ≠ none ∨ search.go EVENT_PATTERN '<' t ≠ none := by
  induction t with
  | nil => simp at h
  | cons c cs ih =>
    by_cases hgt : c = '>'
    · simp [lazyGroup, hgt]
    have hmem : '>' ∈ cs := by simpa [Ne.symm hgt] using h
    by_cases hlt : c = '<'
    · right
      subst hlt
      rcases ih hmem with hl | hg
      · obtain ⟨⟨m, q⟩, hm⟩ := Option.ne_none_iff_exists'.mp hl
        simp [search.go, hm]
      · obtain ⟨⟨b, m, q⟩, hb⟩ := Option.ne_none_iff_exists'.mp hg
        rw [search.go]
        split <;> simp [hb]
    · rcases ih hmem with hl | hg
      · left
        obtain ⟨⟨m, q⟩, hm⟩ := Option.ne_none_iff_exists'.mp hl
        simp [lazyGroup, hgt, hlt, hm]
      · right
        obtain ⟨⟨b, m, q⟩, hb⟩ := Option.ne_none_iff_exists'.mp hg
        simp [search.go, hlt, hb]

/-- A text that starts outside of every annotation, read one character on. -/
theorem closed_cons {c : Char} (t : Text) (h : c ≠ '<') :
    (scan '<' '>' (c :: t)).closed = (scan '<' '>' t).closed := by
  have hstep : Scan.step '<' '>' {} c = ({} : Scan Char).after [c] [] := by
    unfold Scan.step Scan.put Scan.after
    simp [h]
  unfold scan
  rw [read_cons, hstep, read_after]
  simp [Scan.after]

theorem no_match_closes_nothing {t : Text} (h : search.go EVENT_PATTERN '<' t = none) :
    (scan '<' '>' t).closed = [] := by
  induction t with
  | nil => rfl
  | cons c cs ih =>
    simp only [search.go] at h
    by_cases hlt : c = '<'
    · subst hlt
      have hno : '>' ∉ cs := by
        intro hmem
        rcases found_of_close hmem with hl | hg
        · obtain ⟨⟨m, q⟩, hm⟩ := Option.ne_none_iff_exists'.mp hl
          simp [hm] at h
        · obtain ⟨⟨b, m, q⟩, hb⟩ := Option.ne_none_iff_exists'.mp hg
          rw [hb] at h
          split at h <;> simp at h
      exact read_no_close _ (by simp [hno])
    · simp only [if_neg hlt, Option.map_eq_none_iff] at h
      rw [closed_cons _ hlt]
      exact ih h

/-- Before a match that no group reaches there is no close character. -/
theorem no_close_before {t a m q : Text} (hl : lazyGroup EVENT_PATTERN t = none)
    (h : search.go EVENT_PATTERN '<' t = some (a, m, q)) : '>' ∉ a := by
  induction t generalizing a with
  | nil => simp [search.go] at h
  | cons c cs ih =>
    have hgt : c ≠ '>' := by
      rintro rfl
      simp [lazyGroup] at hl
    have hcs : lazyGroup EVENT_PATTERN cs = none ∨ a = [] := by
      by_cases hlt : c = '<'
      · rcases hm : lazyGroup EVENT_PATTERN cs with _ | ⟨m', q'⟩
        · exact Or.inl rfl
        · simp [search.go, hlt, hm] at h
          exact Or.inr h.1
      · left
        simpa [lazyGroup, hgt, hlt] using hl
    rcases hcs with hcs | rfl
    · simp only [search.go, hcs, ite_self, Option.map_eq_some_iff, Prod.mk.injEq,
        Prod.exists] at h
      obtain ⟨b, m', q', hb, rfl, rfl, rfl⟩ := h
      simp [ih hcs hb, Ne.symm hgt]
    · simp

/-- The first match is the first annotation to close. -/
theorem match_is_first_to_close {t a m q : Text}
    (h : search.go EVENT_PATTERN '<' t = some (a, m, q)) :
    t = a ++ ('<' :: m ++ ['>']) ++ q ∧ '<' ∉ m ∧ '>' ∉ m ∧ (scan '<' '>' a).closed = [] := by
  induction t generalizing a with
  | nil => simp [search.go] at h
  | cons c cs ih =>
    simp only [search.go] at h
    split at h
    · rename_i m' q' hm
      simp only [Option.some.injEq, Prod.mk.injEq] at h
      obtain ⟨rfl, rfl, rfl⟩ := h
      split at hm
      · rename_i hlt
        obtain ⟨h1, h2, h3⟩ := lazyGroup_some hm
        exact ⟨by simp [hlt, h1], h3, h2, rfl⟩
      · simp at hm
    · rename_i hno
      simp only [Option.map_eq_some_iff, Prod.mk.injEq, Prod.exists] at h
      obtain ⟨b, m', q', hb, rfl, rfl, rfl⟩ := h
      obtain ⟨h1, h2, h3, h4⟩ := ih hb
      refine ⟨by simp [h1], h2, h3, ?_⟩
      by_cases hlt : c = '<'
      · subst hlt
        exact read_no_close _ (by simp [no_close_before (by simpa using hno) hb])
      · rw [closed_cons _ hlt, h4]

theorem coerceLoop_events (fuel : Nat) (t : Text) (h : t.length ≤ fuel) :
    coerceLoop EVENT_PATTERN fuel t =
      ((scan '<' '>' t).closed.map rstrip, (scan '<' '>' t).rest '<') := by
  have hkeep : ∀ u : Text, (scan '<' '>' u).closed = [] →
      ([], u) = ((scan '<' '>' u).closed.map rstrip, (scan '<' '>' u).rest '<') := by
    intro u hc
    rw [scan_rest_of_no_close hc, hc]
    rfl
  induction fuel generalizing t with
  | zero =>
    rw [List.eq_nil_of_length_eq_zero (by omega : t.length = 0)]
    exact hkeep [] rfl
  | succ fuel ih =>
    rw [coerceLoop]
    split
    · rw [search_event]
      rcases hs : search.go EVENT_PATTERN '<' t with _ | ⟨a, m, q⟩
      · exact hkeep t (no_match_closes_nothing hs)
      · obtain ⟨ht, hop, hcl, ha⟩ := match_is_first_to_close hs
        have hlen : (a ++ q).length ≤ fuel := by
          rw [ht] at h
          simp only [List.length_append, List.length_cons, List.length_nil] at h ⊢
          omega
        simp only [ih (a ++ q) hlen]
        rw [ht, scan_remove (by decide) hop hcl ha, rest_after]
        simp [Scan.after]
    · rename_i hno
      exact hkeep t (read_no_close _ hno)

/-- The events taken out of a buffer are its annotations in closing order,
and the buffer keeps the rest. -/
theorem coerce_events (t : Text) :
    coerce_message_from_buffer EVENT_PATTERN t =
      ((scan '<' '>' t).closed.map rstrip, (scan '<' '>' t).rest '<') :=
  coerceLoop_events _ t (Nat.le_refl _)

/-! ## The data of one buffer -/

/-- A line that the data pattern can match. -/
def Plain (l : Text) : Prop := '^' ∉ l

instance (l : Text) : Decidable (Plain l) := inferInstanceAs (Decidable (_ ∉ _))

/-- The data taken out of a buffer, and the buffer after: the lines up to the
first one that the data pattern cannot match. -/
def delivered (t : Text) : List Text × Text :=
  let (ls, r) := lines.split '\n' t
  ((ls.takeWhile (fun l => Plain l)).map rstrip,
    ((ls.dropWhile (fun l => Plain l)).map (· ++ ['\n'])).flatten ++ r)

theorem delivered_open {t : Text} (h : '\n' ∉ t) : delivered t = ([], t) := by
  simp [delivered, lines.split_open h]

theorem delivered_line {l : Text} (u : Text) (h : '\n' ∉ l) (hp : Plain l) :
    delivered (l ++ '\n' :: u) = (rstrip l :: (delivered u).1, (delivered u).2) := by
  simp [delivered, lines.split_line u h, hp]

/-- A line with a caret holds back itself and all that comes after it. -/
theorem delivered_stuck {l : Text} (u : Text) (h : '\n' ∉ l) (hp : ¬ Plain l) :
    delivered (l ++ '\n' :: u) = ([], l ++ '\n' :: u) := by
  simp [delivered, lines.split_line u h, hp, lines.join_split]

theorem lazyGroup_line {l : Text} (u : Text) (h : '\n' ∉ l) (hp : Plain l) :
    lazyGroup DATA_PATTERN (l ++ '\n' :: u) = some (l, u) := by
  unfold Plain at hp
  induction l with
  | nil => simp [lazyGroup]
  | cons c l ih =>
    simp only [List.mem_cons, not_or] at h hp
    simp [lazyGroup, Ne.symm h.1, Ne.symm hp.1, ih h.2 hp.2]

theorem lazyGroup_stuck {l : Text} (u : Text) (h : '\n' ∉ l) (hp : ¬ Plain l) :
    lazyGroup DATA_PATTERN (l ++ '\n' :: u) = none := by
  unfold Plain at hp
  rw [not_not] at hp
  induction l with
  | nil => simp at hp
  | cons c l ih =>
    simp only [List.mem_cons, not_or] at h hp
    by_cases hc : c = '^'
    · simp [lazyGroup, hc]
    · have hl : '^' ∈ l := by
        rcases hp with hp | hp
        · exact absurd hp.symm hc
        · exact hp
      simp [lazyGroup, Ne.symm h.1, ih h.2 hl]

theorem coerceLoop_data (fuel : Nat) (t : Text) (h : t.length ≤ fuel) :
    coerceLoop DATA_PATTERN fuel t = delivered t := by
  induction t using lines.text_induction '\n' generalizing fuel with
  | hopen t ht =>
    rw [delivered_open ht]
    cases fuel with
    | zero => rfl
    | succ fuel => rw [coerceLoop, data_close, if_neg ht]
  | hline l u hl ih =>
    simp only [List.length_append, List.length_cons] at h
    obtain ⟨fuel, rfl⟩ : ∃ n, fuel = n + 1 := ⟨fuel - 1, by omega⟩
    rw [coerceLoop, data_close, if_pos (by simp), search_data]
    by_cases hp : Plain l
    · rw [lazyGroup_line u hl hp, delivered_line u hl hp]
      simp only [Option.map_some, List.nil_append, ih fuel (by omega)]
    · rw [lazyGroup_stuck u hl hp, delivered_stuck u hl hp]
      rfl

theorem coerce_data (t : Text) : coerce_message_from_buffer DATA_PATTERN t = delivered t :=
  coerceLoop_data _ t (Nat.le_refl _)

/-- What is delivered is a start of the buffer that ends with a line, and
it is delivered in the same way whatever comes after it. -/
theorem delivered_start (t : Text) :
    ∃ l, t = l ++ (delivered t).2 ∧ (l = [] ∨ ∃ l', l = l' ++ ['\n']) ∧
      ∀ u, delivered (l ++ u) = ((delivered t).1 ++ (delivered u).1, (delivered u).2) := by
  induction t using lines.text_induction '\n' with
  | hopen t ht =>
    rw [delivered_open ht]
    exact ⟨[], rfl, Or.inl rfl, fun u => rfl⟩
  | hline l t hl ih =>
    by_cases hp : Plain l
    · obtain ⟨k, hk, hend, hu⟩ := ih
      rw [delivered_line t hl hp]
      refine ⟨l ++ '\n' :: k, ?_, Or.inr ?_, ?_⟩
      · rw [List.append_assoc, List.cons_append, ← hk]
      · rcases hend with rfl | ⟨k', rfl⟩
        · exact ⟨l, rfl⟩
        · exact ⟨l ++ '\n' :: k', by simp⟩
      · intro u
        rw [List.append_assoc, List.cons_append, delivered_line _ hl hp, hu u]
        rfl
    · rw [delivered_stuck t hl hp]
      exact ⟨[], rfl, Or.inl rfl, fun u => rfl⟩

/-! ## The state after any pushes -/

/-- The parser after the text `p`: the annotations of `p` are events, and the
lines of the rest are data. -/
def readState (p : Text) : CboxParser :=
  let s := scan '<' '>' p
  { buffer := (delivered (s.rest '<')).2
    events := s.closed.map rstrip
    data := (delivered (s.rest '<')).1 }

@[simp] theorem readState_nil : readState [] = {} := rfl

/-- A text whose annotations are closed before the next newline. -/
def Annotated (s : Text) : Prop := Closed '<' '>' '\n' 0 s

instance (s : Text) : Decidable (Annotated s) := inferInstanceAs (Decidable (Closed _ _ _ _ _))

/-- One push goes on from the text before it. The lines that were delivered
lie outside of every annotation, so taking them out changes nothing that a
later scan of the buffer sees. -/
theorem push_readState {p c q : Text} (h : Annotated (p ++ c ++ q)) :
    push (readState p) c = readState (p ++ c) := by
  rcases hs : scan '<' '>' p with ⟨o, fs, cs⟩
  have hclean : Clean '<' '>' (scan '<' '>' p) := clean_scan p
  have hsealed := (sealed_read (s := ({} : Scan Char)) (p := p) (q := c ++ q)
    (by simp [Sealed]) (by simpa [Annotated] using h)).1
  change Sealed '\n' (scan '<' '>' p) at hsealed
  rw [hs] at hclean hsealed
  obtain ⟨l, hl, hend, hdel⟩ := delivered_start (Scan.rest '<' ⟨o, fs, cs⟩)
  have hframes : '\n' ∉ (fs.reverse.map ('<' :: ·)).flatten := by
    simp only [List.mem_flatten, List.mem_map, List.mem_reverse, not_exists, not_and]
    rintro _ ⟨f, hf, rfl⟩ hm
    exact hsealed f hf (by simpa using hm)
  obtain ⟨o', ho, hb⟩ := lines.prefix_of_ended hl hend hframes
  change o = l ++ o' at ho
  -- `t` is what a scan of the buffer sees; the lines `l` were taken from before it
  let t : Scan Char := ⟨o', fs, []⟩
  have ht : (⟨o, fs, cs⟩ : Scan Char) = t.after l cs := by simp [t, Scan.after, ho]
  have htclean : Clean '<' '>' t := by
    refine ⟨fun hm => hclean.outer_op ?_, hclean.frames_op, hclean.frames_cl⟩
    change '<' ∈ o
    rw [ho]
    exact List.mem_append_right l hm
  have hbuf : (readState p).buffer = t.rest '<' := by
    simp only [readState, hs, hb]
    rfl
  have hscan : scan '<' '>' ((readState p).buffer ++ c) = t.read '<' '>' c := by
    rw [hbuf, scan, read_append]
    exact congrArg (fun s => Scan.read '<' '>' s c) (scan_rest htclean)
  have hnext : scan '<' '>' (p ++ c) = (t.read '<' '>' c).after l cs := by
    rw [← read_after, ← ht, ← hs]
    exact read_append _ _ _
  unfold push
  simp only [coerce_events, coerce_data, hscan]
  unfold readState
  simp only [hnext, rest_after, hs, hdel]
  simp [Scan.after]

theorem pushAll_readState (p : Text) (chunks : List Text) (h : Annotated (p ++ chunks.flatten)) :
    pushAll (readState p) chunks = readState (p ++ chunks.flatten) := by
  induction chunks generalizing p with
  | nil => simp [pushAll]
  | cons c chunks ih =>
    simp only [List.flatten_cons, ← List.append_assoc] at h ⊢
    rw [← ih (p ++ c) h, ← push_readState h]
    rfl

theorem pushAll_fresh {s : Text} (chunks : List Text) (h : Annotated s)
    (hs : chunks.flatten = s) : pushAll {} chunks = readState s := by
  have := pushAll_readState [] chunks (by simpa [hs] using h)
  simpa [hs] using this

/-! ## The laws -/

/-- The annotations of a text, inner ones removed from outer ones, in the
order of their closing characters. -/
def annotations (s : Text) : List Text := (scan '<' '>' s).closed

/-- A text with its annotations removed. -/
def unannotated (s : Text) : Text := (scan '<' '>' s).outer

/-- It does not matter where the transport cuts the stream. -/
theorem cuts_do_not_matter {s : Text} (chunks : List Text) (h : Annotated s)
    (hs : chunks.flatten = s) : pushAll {} chunks = push {} s := by
  rw [pushAll_fresh chunks h hs, ← pushAll_fresh [s] h (by simp)]
  rfl

theorem push_events {s : Text} (h : Annotated s) :
    (push {} s).events = (annotations s).map rstrip := by
  rw [← cuts_do_not_matter [s] h (by simp), pushAll_fresh [s] h (by simp)]
  rfl

/-- The data and the buffer after any chunks come from the lines of the
stream without its annotations. -/
theorem pushAll_delivered {s : Text} (chunks : List Text) (h : Annotated s)
    (hs : chunks.flatten = s) :
    ((pushAll {} chunks).data, (pushAll {} chunks).buffer) = delivered (unannotated s) := by
  rw [pushAll_fresh chunks h hs]
  simp [readState, unannotated, rest_of_closed h]

/-- The chunks of a stream give the same messages as the whole stream, and
the events are exactly its annotations, if and only if no annotation ends in
white space: `_extract_message` strips the white space that the docstring of
`_coerce_message_from_buffer` keeps. -/
theorem events_are_the_annotations_iff_none_ends_in_white_space {s : Text} (h : Annotated s) :
    ((∀ chunks : List Text, chunks.flatten = s → pushAll {} chunks = push {} s) ∧
        (push {} s).events = annotations s) ↔
      ∀ a ∈ annotations s, Trimmed a := by
  rw [push_events h]
  constructor
  · rintro ⟨-, he⟩ a ha
    rw [← rstrip_eq_self_iff]
    exact (List.map_eq_map_iff.mp (he.trans (List.map_id _).symm)) a ha
  · intro ht
    refine ⟨fun chunks hs => cuts_do_not_matter chunks h hs, ?_⟩
    exact (List.map_congr_left fun a ha => (rstrip_eq_self_iff a).mpr (ht a ha)).trans
      (List.map_id _)

theorem events_are_the_annotations_of_a_nested_text :
    (push {} "<!a<b>c>d\n".toList).events = annotations "<!a<b>c>d\n".toList :=
  ((events_are_the_annotations_iff_none_ends_in_white_space (by decide)).mpr (by decide)).2

/-- The example of the docstring: its `messageA   ` comes out as `messageA`. -/
theorem the_docstring_example_loses_its_spaces :
    Annotated "<messageA <messageB> <messageC> > data <messageD>".toList ∧
      annotations "<messageA <messageB> <messageC> > data <messageD>".toList =
        ["messageB", "messageC", "messageA   ", "messageD"].map String.toList ∧
      (push {} "<messageA <messageB> <messageC> > data <messageD>".toList).events ≠
        annotations "<messageA <messageB> <messageC> > data <messageD>".toList := by
  decide

/-- Every line of the stream is delivered, stripped, and only the open part
stays in the buffer, if and only if no line holds a caret: the class `[^^]` of
the data pattern leaves the caret out, so a line with one holds back itself
and every later line. -/
theorem every_line_is_delivered_iff_none_holds_a_caret {s : Text} (chunks : List Text)
    (h : Annotated s) (hs : chunks.flatten = s) :
    ((pushAll {} chunks).data = (lines.split '\n' (unannotated s)).1.map rstrip ∧
        (pushAll {} chunks).buffer = (lines.split '\n' (unannotated s)).2) ↔
      ∀ l ∈ (lines.split '\n' (unannotated s)).1, '^' ∉ l := by
  have hd := pushAll_delivered chunks h hs
  simp only [delivered, Prod.mk.injEq] at hd
  rw [hd.1, hd.2]
  generalize lines.split '\n' (unannotated s) = lr
  obtain ⟨ls, r⟩ := lr
  simp only
  constructor
  · rintro ⟨hdata, -⟩
    have hlen : (ls.takeWhile fun l => Plain l).length = ls.length := by
      simpa using congrArg List.length hdata
    have hall : (ls.takeWhile fun l => Plain l) = ls :=
      (List.takeWhile_prefix _).eq_of_length hlen
    have hplain : ls.all (fun l => Plain l) = true := by
      rw [← hall]
      exact List.all_takeWhile
    intro l hl
    exact of_decide_eq_true (List.all_eq_true.mp hplain l hl)
  · intro hall
    have hplain : ∀ l ∈ ls, decide (Plain l) = true := fun l hl => decide_eq_true (hall l hl)
    have htake : (ls ++ []).takeWhile (fun l => Plain l) = ls ++ [] :=
      List.takeWhile_append_of_pos hplain
    have hdrop : (ls ++ []).dropWhile (fun l => Plain l) = [] :=
      List.dropWhile_append_of_pos hplain
    rw [List.append_nil] at htake hdrop
    rw [htake, hdrop]
    exact ⟨rfl, rfl⟩

theorem two_lines_are_delivered_in_three_chunks :
    (pushAll {} ["ab<x".toList, ">\ncd ".toList, "\nef".toList]).data =
      ["ab".toList, "cd".toList] :=
  ((every_line_is_delivered_iff_none_holds_a_caret (s := "ab<x>\ncd \nef".toList) _
    (by decide) (by decide)).mpr (by decide)).1

/-- A line with a caret is never delivered, and neither is the line after it. -/
theorem a_caret_holds_back_the_next_line :
    Annotated "a^b\nc\n".toList ∧
      (lines.split '\n' (unannotated "a^b\nc\n".toList)).1 = ["a^b".toList, "c".toList] ∧
      (pushAll {} ["a^b\n".toList, "c\n".toList]).data = [] := by
  decide

end devcon_spark.cbox_parser
