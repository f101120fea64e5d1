-- UTF-8: bytes and the text that they decode to, and where a text may be cut
-- so that both parts decode.
import Mathlib.Data.List.Basic

namespace utf8

/-- `t.encode()` -/
def encode (t : List Char) : List UInt8 := t.flatMap String.utf8EncodeChar

/-- `bs.decode()`. `none` is `UnicodeDecodeError`. -/
def decode (bs : List UInt8) : Option (List Char) := bs.toByteArray.utf8Decode?.map Array.toList

/-- The bytes are empty, or their first one is the first of a character. -/
def StartsCharacter (bs : List UInt8) : Prop := ∀ b ∈ bs.head?, b.IsUTF8FirstByte

instance : (bs : List UInt8) → Decidable (StartsCharacter bs)
  | [] => isTrue (by simp [StartsCharacter])
  | b :: _ => decidable_of_iff b.IsUTF8FirstByte (by simp [StartsCharacter])

@[simp] theorem encode_nil : encode [] = [] := rfl

@[simp] theorem encode_cons (c : Char) (t : List Char) :
    encode (c :: t) = String.utf8EncodeChar c ++ encode t := rfl

@[simp] theorem encode_append (t u : List Char) : encode (t ++ u) = encode t ++ encode u :=
  List.flatMap_append

theorem utf8EncodeChar_length_pos (c : Char) : 0 < (String.utf8EncodeChar c).length := by
  rw [String.length_utf8EncodeChar]
  exact c.utf8Size_pos

/-- What is encoded is decoded again. -/
theorem decode_encode (t : List Char) : decode (encode t) = some t := by
  have hbytes : (encode t).toByteArray = t.utf8Encode := rfl
  unfold decode
  rw [hbytes, List.utf8Decode?_utf8Encode]
  rfl

theorem encode_of_decode {bs : List UInt8} {t : List Char} (h : decode bs = some t) :
    encode t = bs := by
  obtain ⟨chars, hchars, rfl⟩ := Option.map_eq_some_iff.mp h
  have hsome : bs.toByteArray.utf8Decode?.isSome := by simp [hchars]
  have hback : (bs.toByteArray.utf8Decode?.get hsome).toList.utf8Encode = bs.toByteArray :=
    ByteArray.utf8Encode_get_utf8Decode?
  have hget : bs.toByteArray.utf8Decode?.get hsome = chars := by simp [hchars]
  rw [hget] at hback
  have hlist := congrArg (fun b : ByteArray => b.data.toList) hback
  simpa [encode, List.utf8Encode] using hlist

theorem decode_eq_some_iff {bs : List UInt8} {t : List Char} :
    decode bs = some t ↔ encode t = bs := by
  constructor
  · exact encode_of_decode
  · rintro rfl
    exact decode_encode t

/-! ## Cuts -/

theorem startsCharacter_nil : StartsCharacter [] := by simp [StartsCharacter]

/-- A text starts with a character. -/
theorem startsCharacter_encode (t : List Char) : StartsCharacter (encode t) := by
  cases t with
  | nil => exact startsCharacter_nil
  | cons c t =>
    intro b hb
    have hpos := utf8EncodeChar_length_pos c
    have hhead : (encode (c :: t)).head? = some (String.utf8EncodeChar c)[0] := by
      rw [encode_cons, List.head?_append_of_ne_nil _ (List.ne_nil_of_length_pos hpos),
        List.head?_eq_getElem?, List.getElem?_eq_getElem hpos]
    rw [hhead] at hb
    cases hb
    exact UInt8.isUTF8FirstByte_getElem_zero_utf8EncodeChar

theorem startsCharacter_of_decode {bs : List UInt8} {t : List Char} (h : decode bs = some t) :
    StartsCharacter bs := by
  rw [← encode_of_decode h]
  exact startsCharacter_encode t

theorem startsCharacter_flatten {pieces : List (List UInt8)}
    (h : ∀ piece ∈ pieces, StartsCharacter piece) : StartsCharacter pieces.flatten := by
  induction pieces with
  | nil => exact startsCharacter_nil
  | cons piece pieces ih =>
    rw [List.flatten_cons]
    cases piece with
    | nil => exact ih fun p hp => h p (List.mem_cons_of_mem _ hp)
    | cons b bs => exact h (b :: bs) List.mem_cons_self

/-- What is cut off inside a character does not start with one. -/
theorem not_startsCharacter_drop {c : Char} {n : Nat} (hpos : 0 < n)
    (hlt : n < (String.utf8EncodeChar c).length) (rest : List UInt8) :
    ¬ StartsCharacter ((String.utf8EncodeChar c).drop n ++ rest) := by
  intro h
  have hhead : ((String.utf8EncodeChar c).drop n ++ rest).head? =
      some (String.utf8EncodeChar c)[n] := by
    rw [List.drop_eq_getElem_cons hlt]
    rfl
  have hfirst := h _ hhead
  rw [UInt8.isUTF8FirstByte_getElem_utf8EncodeChar] at hfirst
  omega

/-- A text that is cut where a character starts is cut into two texts. -/
theorem encode_cut {t : List Char} {a b : List UInt8} (h : encode t = a ++ b)
    (hb : StartsCharacter b) : ∃ t₁ t₂, t = t₁ ++ t₂ ∧ encode t₁ = a ∧ encode t₂ = b := by
  induction t generalizing a with
  | nil =>
    obtain ⟨rfl, rfl⟩ := List.append_eq_nil_iff.mp h.symm
    exact ⟨[], [], rfl, rfl, rfl⟩
  | cons c t ih =>
    rw [encode_cons] at h
    rcases Nat.eq_zero_or_pos a.length with hnil | hpos
    · obtain rfl := List.length_eq_zero_iff.mp hnil
      exact ⟨[], c :: t, rfl, rfl, h⟩
    · rcases Nat.lt_or_ge a.length (String.utf8EncodeChar c).length with hlt | hge
      · -- the cut is inside the character
        have hrest : b = (String.utf8EncodeChar c).drop a.length ++ encode t := by
          rw [← List.drop_append_of_le_length (Nat.le_of_lt hlt), h, List.drop_left]
        rw [hrest] at hb
        exact absurd hb (not_startsCharacter_drop hpos hlt _)
      · obtain ⟨a', rfl⟩ : String.utf8EncodeChar c <+: a :=
          List.prefix_of_prefix_length_le (List.prefix_append _ _)
            (h ▸ List.prefix_append a b) hge
        rw [List.append_assoc] at h
        obtain ⟨t₁, t₂, rfl, hfirst, hlast⟩ := ih (List.append_cancel_left h)
        exact ⟨c :: t₁, t₂, rfl, by rw [encode_cons, hfirst], hlast⟩

/-- A text is cut into texts exactly where each piece starts with a character. -/
theorem pieces_decode_iff {bs : List UInt8} {t : List Char} (h : decode bs = some t)
    {pieces : List (List UInt8)} (hpieces : pieces.flatten = bs) :
    (∃ ts : List (List Char), pieces.map decode = ts.map some ∧ ts.flatten = t) ↔
      ∀ piece ∈ pieces, StartsCharacter piece := by
  constructor
  · rintro ⟨ts, hdecode, -⟩ piece hpiece
    have hmem : decode piece ∈ ts.map some := hdecode ▸ List.mem_map_of_mem hpiece
    obtain ⟨t', -, ht'⟩ := List.mem_map.mp hmem
    exact startsCharacter_of_decode ht'.symm
  · intro hstarts
    induction pieces generalizing bs t with
    | nil =>
      subst hpieces
      cases h
      exact ⟨[], rfl, rfl⟩
    | cons piece pieces ih =>
      have hrest : StartsCharacter pieces.flatten :=
        startsCharacter_flatten fun p hp => hstarts p (List.mem_cons_of_mem piece hp)
      obtain ⟨t₁, t₂, rfl, hfirst, hlast⟩ :=
        encode_cut ((encode_of_decode h).trans hpieces.symm) hrest
      obtain ⟨ts, hts, hflat⟩ := ih (decode_eq_some_iff.mpr hlast) rfl
        fun p hp => hstarts p (List.mem_cons_of_mem piece hp)
      refine ⟨t₁ :: ts, ?_, by rw [List.flatten_cons, hflat]⟩
      rw [List.map_cons, List.map_cons, hts, decode_eq_some_iff.mpr hfirst]

end utf8
