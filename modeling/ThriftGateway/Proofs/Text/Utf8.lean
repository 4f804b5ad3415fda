import ThriftGateway.Text.Utf8

/-!
# Bytes that are texts

Bytes are decoded as a text exactly if they are the bytes of the text (`decode_eq_ok_iff`), so bytes that cannot be
decoded are those of no text.
-/

namespace ThriftGateway.Text

variable {bytes rest : List UInt8} {cs : List Char}

/-! ### The bytes of a text -/

private theorem toList_loop_eq (bytes : ByteArray) (i : Nat) (front : List UInt8) :
    ByteArray.toList.loop bytes i front = front.reverse ++ bytes.data.toList.drop i := by
  induction i, front using ByteArray.toList.loop.induct bytes with
  | case1 i front hi ih =>
    have hdata : i < bytes.data.toList.length := hi
    have hget : bytes.get! i = bytes.data.toList[i] := by
      show bytes.data[i]! = _
      rw [getElem!_pos bytes.data i hi]
      rfl
    rw [ByteArray.toList.loop.eq_def, if_pos hi, ih, List.drop_eq_getElem_cons hdata, hget, List.reverse_cons,
      List.append_assoc]
    rfl
  | case2 i front hi =>
    have hdata : bytes.data.toList.length ≤ i := Nat.le_of_not_lt hi
    rw [ByteArray.toList.loop.eq_def, if_neg hi, List.drop_eq_nil_of_le hdata, List.append_nil]

/-- The bytes of a text are those of its characters. -/
private theorem encode_ofList (cs : List Char) : encode (String.ofList cs) = cs.flatMap String.utf8EncodeChar := by
  rw [encode, String.toUTF8_eq_toByteArray, String.toByteArray_ofList, List.utf8Encode, ByteArray.toList,
    toList_loop_eq, List.reverse_nil, List.nil_append, List.drop_zero, List.toList_data_toByteArray]

/-! ### One character -/

/-- A byte that goes on with a character. -/
def IsTail (b : UInt8) : Prop := 0x80 ≤ b.toNat ∧ b.toNat ≤ 0xBF

section Continuation

variable {low high value n : Nat}

private theorem continuation_succ_eq_ok {count : Nat} {r : Nat × List UInt8} :
    continuation low high (count + 1) value bytes = .ok r ↔
      ∃ b rest, bytes = b :: rest ∧ (low ≤ b.toNat ∧ b.toNat ≤ high) ∧
        continuation 0x80 0xBF count (value * 64 + b.toNat % 64) rest = .ok r := by
  cases bytes with
  | nil => exact ⟨nofun, by rintro ⟨b, rest, ⟨⟩, -⟩⟩
  | cons b rest =>
    rw [continuation]
    split
    · rename_i hb
      constructor
      · intro h
        exact ⟨b, rest, rfl, hb, h⟩
      · rintro ⟨b, rest, ⟨⟩, -, h⟩
        exact h
    · rename_i hb
      constructor
      · intro h
        cases h
      · rintro ⟨b, rest, ⟨⟩, hb', -⟩
        exact absurd hb' hb

private theorem continuation_one_eq_ok : continuation low high 1 value bytes = .ok (n, rest) ↔
    ∃ b, bytes = b :: rest ∧ (low ≤ b.toNat ∧ b.toNat ≤ high) ∧ n = value * 64 + b.toNat % 64 := by
  rw [continuation_succ_eq_ok]
  constructor
  · rintro ⟨b, rest, rfl, hb, ⟨⟩⟩
    exact ⟨b, rfl, hb, rfl⟩
  · rintro ⟨b, rfl, hb, rfl⟩
    exact ⟨b, rest, rfl, hb, rfl⟩

private theorem continuation_two_eq_ok : continuation low high 2 value bytes = .ok (n, rest) ↔
    ∃ b c, bytes = b :: c :: rest ∧ (low ≤ b.toNat ∧ b.toNat ≤ high) ∧ IsTail c ∧
      n = (value * 64 + b.toNat % 64) * 64 + c.toNat % 64 := by
  rw [continuation_succ_eq_ok]
  constructor
  · rintro ⟨b, rest, rfl, hb, h⟩
    obtain ⟨c, rfl, hc, rfl⟩ := continuation_one_eq_ok.1 h
    exact ⟨b, c, rfl, hb, hc, rfl⟩
  · rintro ⟨b, c, rfl, hb, hc, hn⟩
    exact ⟨b, c :: rest, rfl, hb, continuation_one_eq_ok.2 ⟨c, rfl, hc, hn⟩⟩

private theorem continuation_three_eq_ok : continuation low high 3 value bytes = .ok (n, rest) ↔
    ∃ b c d, bytes = b :: c :: d :: rest ∧ (low ≤ b.toNat ∧ b.toNat ≤ high) ∧ IsTail c ∧ IsTail d ∧
      n = ((value * 64 + b.toNat % 64) * 64 + c.toNat % 64) * 64 + d.toNat % 64 := by
  rw [continuation_succ_eq_ok]
  constructor
  · rintro ⟨b, rest, rfl, hb, h⟩
    obtain ⟨c, d, rfl, hc, hd, rfl⟩ := continuation_two_eq_ok.1 h
    exact ⟨b, c, d, rfl, hb, hc, hd, rfl⟩
  · rintro ⟨b, c, d, rfl, hb, hc, hd, hn⟩
    exact ⟨b, c :: d :: rest, rfl, hb, continuation_two_eq_ok.2 ⟨c, d, rfl, hc, hd, hn⟩⟩

end Continuation

/-- The bytes that stand for a number of a character: the first of them tells how many there are, none are more than
needed, and the numbers of halves of characters and those past the last character have no bytes. -/
inductive Sequence : Nat → List UInt8 → Prop
  | one {a : UInt8} (ha : a.toNat < 0x80) : Sequence a.toNat [a]
  | two {a b : UInt8} {n : Nat} (ha : 0xC2 ≤ a.toNat ∧ a.toNat < 0xE0) (hb : IsTail b)
      (hn : n = a.toNat % 32 * 64 + b.toNat % 64) : Sequence n [a, b]
  | three {a b c : UInt8} {n : Nat} (ha : 0xE0 ≤ a.toNat ∧ a.toNat < 0xF0) (hb : IsTail b) (hc : IsTail c)
      (hn : n = (a.toNat % 16 * 64 + b.toNat % 64) * 64 + c.toNat % 64) (hlow : 0x800 ≤ n)
      (hwhole : n < 0xD800 ∨ 0xDFFF < n) : Sequence n [a, b, c]
  | four {a b c d : UInt8} {n : Nat} (ha : 0xF0 ≤ a.toNat ∧ a.toNat < 0xF5) (hb : IsTail b) (hc : IsTail c)
      (hd : IsTail d) (hn : n = ((a.toNat % 8 * 64 + b.toNat % 64) * 64 + c.toNat % 64) * 64 + d.toNat % 64)
      (hlow : 0x10000 ≤ n) (hhigh : n < 0x110000) : Sequence n [a, b, c, d]

private theorem decodeOne_eq_ok {b : UInt8} {n : Nat} :
    decodeOne b bytes = .ok (n, rest) ↔ ∃ tail, bytes = tail ++ rest ∧ Sequence n (b :: tail) := by
  have hb := b.toNat_lt
  unfold decodeOne
  constructor
  · intro h
    -- where the first byte is followed by one, two or three more
    have htwo : continuation 0x80 0xBF 1 (b.toNat % 32) bytes = .ok (n, rest) → 0xC2 ≤ b.toNat ∧ b.toNat < 0xE0 →
        ∃ tail, bytes = tail ++ rest ∧ Sequence n (b :: tail) := by
      intro h hfirst
      obtain ⟨c, rfl, hc, hn⟩ := continuation_one_eq_ok.1 h
      exact ⟨[c], rfl, .two hfirst hc hn⟩
    have hthree : ∀ {low high}, continuation low high 2 (b.toNat % 16) bytes = .ok (n, rest) →
        0xE0 ≤ b.toNat ∧ b.toNat < 0xF0 → 0x80 ≤ low → high ≤ 0xBF → (b.toNat = 0xE0 → 0xA0 ≤ low) →
        (b.toNat = 0xED → high < 0xA0) → ∃ tail, bytes = tail ++ rest ∧ Sequence n (b :: tail) := by
      intro low high h hfirst hlow hhigh hleast hgreatest
      obtain ⟨c, d, rfl, hc, hd, hn⟩ := continuation_two_eq_ok.1 h
      have hbounds := hd
      obtain ⟨hd₁, hd₂⟩ := hbounds
      exact ⟨[c, d], rfl, .three hfirst ⟨by omega, by omega⟩ hd hn (by omega) (by omega)⟩
    have hfour : ∀ {low high}, continuation low high 3 (b.toNat % 8) bytes = .ok (n, rest) →
        0xF0 ≤ b.toNat ∧ b.toNat < 0xF5 → 0x80 ≤ low → high ≤ 0xBF → (b.toNat = 0xF0 → 0x90 ≤ low) →
        (b.toNat = 0xF4 → high < 0x90) → ∃ tail, bytes = tail ++ rest ∧ Sequence n (b :: tail) := by
      intro low high h hfirst hlow hhigh hleast hgreatest
      obtain ⟨c, d, e, rfl, hc, hd, he, hn⟩ := continuation_three_eq_ok.1 h
      have hbounds := And.intro hd he
      obtain ⟨⟨hd₁, hd₂⟩, he₁, he₂⟩ := hbounds
      exact ⟨[c, d, e], rfl, .four hfirst ⟨by omega, by omega⟩ hd he hn (by omega) (by omega)⟩
    dsimp only at h
    repeat' split at h
    · rename_i hone
      cases h
      exact ⟨[], rfl, .one hone⟩
    · cases h
    · exact htwo h (by omega)
    · exact hthree h (by omega) (by omega) (by omega) (by omega) (by omega)
    · exact hthree h (by omega) (by omega) (by omega) (by omega) (by omega)
    · exact hthree h (by omega) (by omega) (by omega) (by omega) (by omega)
    · exact hfour h (by omega) (by omega) (by omega) (by omega) (by omega)
    · exact hfour h (by omega) (by omega) (by omega) (by omega) (by omega)
    · exact hfour h (by omega) (by omega) (by omega) (by omega) (by omega)
    · cases h
  · rintro ⟨tail, rfl, h⟩
    cases h with
    | one ha => rw [if_pos ha, List.nil_append]
    | @two _ c _ ha hc hn =>
      rw [if_neg (by omega), if_neg (by omega), if_pos ha.2]
      exact continuation_one_eq_ok.2 ⟨c, rfl, hc, hn⟩
    | @three _ c d _ ha hc hd hn hlow hwhole =>
      have hthree : ∀ {low high}, low ≤ c.toNat ∧ c.toNat ≤ high →
          continuation low high 2 (b.toNat % 16) ([c, d] ++ rest) = .ok (n, rest) :=
        fun hbounds => continuation_two_eq_ok.2 ⟨c, d, rfl, hbounds, hd, hn⟩
      obtain ⟨⟨hc₁, hc₂⟩, hd₁, hd₂⟩ := And.intro hc hd
      rw [if_neg (by omega), if_neg (by omega), if_neg (by omega)]
      split
      · exact hthree (by omega)
      · split
        · exact hthree (by omega)
        · rw [if_pos ha.2]
          exact hthree (by omega)
    | @four _ c d e _ ha hc hd he hn hlow hhigh =>
      have hfour : ∀ {low high}, low ≤ c.toNat ∧ c.toNat ≤ high →
          continuation low high 3 (b.toNat % 8) ([c, d, e] ++ rest) = .ok (n, rest) :=
        fun hbounds => continuation_three_eq_ok.2 ⟨c, d, e, rfl, hbounds, hd, he, hn⟩
      obtain ⟨⟨hc₁, hc₂⟩, ⟨hd₁, hd₂⟩, he₁, he₂⟩ := And.intro hc (And.intro hd he)
      rw [if_neg (by omega), if_neg (by omega), if_neg (by omega), if_neg (by omega), if_neg (by omega),
        if_neg (by omega)]
      split
      · exact hfour (by omega)
      · split
        · exact hfour (by omega)
        · rw [if_pos (by omega)]
          exact hfour (by omega)

/-! ### Sequences are characters -/

private theorem Sequence.isValidChar {n : Nat} (h : Sequence n bytes) : n.isValidChar := by
  cases h with
  | one ha => exact Or.inl (by omega)
  | two ha hb hn => exact Or.inl (by omega)
  | three ha hb hc hn hlow hwhole => exact hwhole.imp_right fun h => ⟨h, by omega⟩
  | four ha hb hc hd hn hlow hhigh => exact Or.inr ⟨by omega, hhigh⟩

private theorem toNat_ofNat {n : Nat} (h : n.isValidChar) : (Char.ofNat n).val.toNat = n := by
  rw [Char.ofNat, dif_pos h]
  rfl

private theorem ofNat_eq {n : Nat} {b : UInt8} (h : n = b.toNat) : UInt8.ofNat n = b := by
  rw [h, UInt8.ofNat_toNat]

/-- The bytes of a sequence are those of its character. -/
private theorem Sequence.eq_utf8EncodeChar {n : Nat} (h : Sequence n bytes) :
    bytes = String.utf8EncodeChar (Char.ofNat n) := by
  have hvalid := h.isValidChar
  rw [String.utf8EncodeChar, toNat_ofNat hvalid]
  cases h with
  | one ha => rw [if_pos (by omega), UInt8.ofNat_toNat]
  | @two a b _ ha hb hn =>
    obtain ⟨hb₁, hb₂⟩ := hb
    rw [if_neg (by omega), if_pos (by omega), ofNat_eq (b := a) (by omega), ofNat_eq (b := b) (by omega)]
  | @three a b c _ ha hb hc hn hlow hwhole =>
    obtain ⟨⟨hb₁, hb₂⟩, hc₁, hc₂⟩ := And.intro hb hc
    rw [if_neg (by omega), if_neg (by omega), if_pos (by omega), ofNat_eq (b := a) (by omega),
      ofNat_eq (b := b) (by omega), ofNat_eq (b := c) (by omega)]
  | @four a b c d _ ha hb hc hd hn hlow hhigh =>
    obtain ⟨⟨hb₁, hb₂⟩, ⟨hc₁, hc₂⟩, hd₁, hd₂⟩ := And.intro hb (And.intro hc hd)
    rw [if_neg (by omega), if_neg (by omega), if_neg (by omega), ofNat_eq (b := a) (by omega),
      ofNat_eq (b := b) (by omega), ofNat_eq (b := c) (by omega), ofNat_eq (b := d) (by omega)]

private theorem toNat_ofNat_byte {n : Nat} (h : n < 256) : (UInt8.ofNat n).toNat = n := by
  rw [UInt8.toNat_ofNat', Nat.mod_eq_of_lt h]

/-- The bytes of a character are a sequence. -/
private theorem sequence_utf8EncodeChar (c : Char) : Sequence c.toNat (String.utf8EncodeChar c) := by
  have hvalid : c.val.toNat < 0xD800 ∨ 0xDFFF < c.val.toNat ∧ c.val.toNat < 0x110000 := c.valid
  have htail : ∀ m, IsTail (UInt8.ofNat (m % 0x40 + 0x80)) := by
    intro m
    unfold IsTail
    rw [toNat_ofNat_byte (by omega)]
    omega
  show Sequence c.val.toNat _
  unfold String.utf8EncodeChar
  dsimp only
  split
  · have hone : Sequence (UInt8.ofNat c.val.toNat).toNat [UInt8.ofNat c.val.toNat] :=
      .one (by rw [toNat_ofNat_byte (by omega)]; omega)
    rwa [toNat_ofNat_byte (by omega)] at hone
  · split
    · refine .two ?_ (htail _) ?_
      · rw [toNat_ofNat_byte (by omega)]
        omega
      · rw [toNat_ofNat_byte (by omega), toNat_ofNat_byte (by omega)]
        omega
    · split
      · refine .three ?_ (htail _) (htail _) ?_ (by omega) (by omega)
        · rw [toNat_ofNat_byte (by omega)]
          omega
        · rw [toNat_ofNat_byte (by omega), toNat_ofNat_byte (by omega), toNat_ofNat_byte (by omega)]
          omega
      · refine .four ?_ (htail _) (htail _) (htail _) ?_ (by omega) (by omega)
        · rw [toNat_ofNat_byte (by omega)]
          omega
        · rw [toNat_ofNat_byte (by omega), toNat_ofNat_byte (by omega), toNat_ofNat_byte (by omega),
            toNat_ofNat_byte (by omega)]
          omega

/-! ### Texts -/

private theorem map_eq_ok {ε α β : Type} {r : Except ε α} {f : α → β} {b : β} :
    r.map f = .ok b ↔ ∃ a, r = .ok a ∧ f a = b := by
  cases r with
  | error e => exact ⟨nofun, nofun⟩
  | ok a =>
    constructor
    · rintro ⟨⟩
      exact ⟨a, rfl, rfl⟩
    · rintro ⟨_, ⟨⟩, rfl⟩
      rfl

private theorem decodeFrom_eq_ok {fuel at_ : Nat} (hfuel : bytes.length ≤ fuel) :
    decodeFrom fuel at_ bytes = .ok cs ↔ bytes = cs.flatMap String.utf8EncodeChar := by
  induction fuel generalizing at_ bytes cs with
  | zero =>
    obtain rfl := List.eq_nil_of_length_eq_zero (Nat.le_zero.1 hfuel)
    cases cs <;> simp [decodeFrom]
  | succ fuel ih =>
    cases bytes with
    | nil => cases cs <;> simp [decodeFrom]
    | cons b bytes =>
      rw [decodeFrom]
      constructor
      · intro h
        cases hone : decodeOne b bytes with
        | error f =>
          rw [hone] at h
          cases h
        | ok r =>
          obtain ⟨n, rest⟩ := r
          rw [hone] at h
          obtain ⟨tail, rfl, hsequence⟩ := decodeOne_eq_ok.1 hone
          have hrest : rest.length ≤ fuel := by
            simp only [List.length_cons, List.length_append] at hfuel
            omega
          obtain ⟨ds, hds, rfl⟩ := map_eq_ok.1 h
          rw [List.flatMap_cons, ← hsequence.eq_utf8EncodeChar, ← (ih hrest).1 hds]
          rfl
      · intro h
        cases cs with
        | nil => cases h
        | cons c cs =>
          obtain ⟨b', tail, hc⟩ := List.exists_cons_of_ne_nil (String.utf8EncodeChar_ne_nil (c := c))
          rw [List.flatMap_cons, hc, List.cons_append] at h
          obtain ⟨rfl, rfl⟩ := List.cons.inj h
          have hrest : (cs.flatMap String.utf8EncodeChar).length ≤ fuel := by
            simp only [List.length_cons, List.length_append] at hfuel
            omega
          have hone : decodeOne b (tail ++ cs.flatMap String.utf8EncodeChar) =
              .ok (c.toNat, cs.flatMap String.utf8EncodeChar) :=
            decodeOne_eq_ok.2 ⟨tail, rfl, hc ▸ sequence_utf8EncodeChar c⟩
          rw [hone]
          exact map_eq_ok.2 ⟨cs, (ih hrest).2 rfl, by rw [Char.ofNat_toNat]⟩

/-- Bytes are decoded as a text exactly if they are the bytes of the text. -/
theorem decode_eq_ok_iff : decode bytes = .ok cs ↔ bytes = encode (String.ofList cs) := by
  rw [encode_ofList]
  exact decodeFrom_eq_ok (Nat.le_refl _)

/-- Different texts are written in different bytes. -/
theorem encode_inj {a b : String} : encode a = encode b ↔ a = b := by
  refine ⟨fun h => ?_, congrArg encode⟩
  have ha : decode (encode a) = .ok a.toList := decode_eq_ok_iff.2 (by rw [String.ofList_toList])
  have hb : decode (encode b) = .ok b.toList := decode_eq_ok_iff.2 (by rw [String.ofList_toList])
  rw [h, hb] at ha
  exact (String.toList_inj.1 (Except.ok.inj ha)).symm

end ThriftGateway.Text
