import Mathlib.Data.List.Basic

/-!
# UTF-8

Texts as byte lists, with the encoder and the decoder of the standard library.

* `decode_encode`, `encode_of_decode`: the two are inverse.
* `prefix_of_decode`: a part of an encoding that decodes is the encoding of a part.
* `mem_encode_ascii`: an ASCII byte comes from its own character only.
-/

namespace Lib

namespace Utf8

/-- The bytes of a text. -/
def encode (text : String) : List UInt8 := text.toList.flatMap String.utf8EncodeChar

/-- The text of some bytes, when they are well formed. -/
def decode (raw : List UInt8) : Option String := String.fromUTF8? raw.toByteArray

variable {text : String} {raw : List UInt8}

theorem encode_toByteArray (text : String) : (encode text).toByteArray = text.toByteArray := by
  conv_rhs => rw [← String.ofList_toList (s := text), String.toByteArray_ofList]
  rfl

@[simp] theorem encode_append (text text' : String) : encode (text ++ text') = encode text ++ encode text' := by
  unfold encode
  rw [String.toList_append, List.flatMap_append]

@[simp] theorem decode_encode (text : String) : decode (encode text) = some text := by
  unfold decode String.fromUTF8?
  rw [encode_toByteArray, dif_pos text.isValidUTF8]
  rfl

theorem encode_of_decode (h : decode raw = some text) : encode text = raw := by
  unfold decode String.fromUTF8? at h
  split at h
  · obtain rfl := Option.some.inj h
    rw [← List.toByteArray_inj, encode_toByteArray]
    rfl
  · cases h

/-- The first character of an encoding is told by its first bytes. -/
theorem head_of_encode {c d : Char} {xs ys : List UInt8}
    (h : String.utf8EncodeChar c ++ xs = String.utf8EncodeChar d ++ ys) : c = d := by
  have hc := ByteArray.utf8DecodeChar?_utf8EncodeChar_append (b := xs.toByteArray) (c := c)
  have hd := ByteArray.utf8DecodeChar?_utf8EncodeChar_append (b := ys.toByteArray) (c := d)
  rw [← List.toByteArray_append] at hc hd
  rw [h, hd] at hc
  exact (Option.some.inj hc).symm

theorem prefix_of_flatMap : ∀ {cs ds : List Char},
    cs.flatMap String.utf8EncodeChar <+: ds.flatMap String.utf8EncodeChar → cs <+: ds := by
  intro cs
  induction cs with
  | nil => intro ds _; exact List.nil_prefix
  | cons c cs ih =>
    intro ds h
    rw [List.flatMap_cons] at h
    cases ds with
    | nil =>
      have hnil := List.append_eq_nil_iff.1 (List.prefix_nil.1 h)
      exact absurd hnil.1 String.utf8EncodeChar_ne_nil
    | cons d ds =>
      obtain ⟨zs, hzs⟩ := h
      rw [List.flatMap_cons, List.append_assoc] at hzs
      obtain rfl := head_of_encode hzs
      have hrest : cs.flatMap String.utf8EncodeChar <+: ds.flatMap String.utf8EncodeChar :=
        ⟨zs, List.append_cancel_left hzs⟩
      obtain ⟨more, hmore⟩ := ih hrest
      exact ⟨more, by rw [List.cons_append, hmore]⟩

/-- **A part of an encoding that decodes.** -/
theorem prefix_of_decode {part : List UInt8} {t : String} (h : decode part = some t)
    (hpart : part <+: encode text) : t.toList <+: text.toList := by
  rw [← encode_of_decode h] at hpart
  exact prefix_of_flatMap hpart

/-- The bytes of a character above ASCII are above ASCII. -/
theorem mem_utf8EncodeChar {c : Char} {b : UInt8} (hb : b ∈ String.utf8EncodeChar c) (hlt : b.toNat < 128) :
    c.toNat = b.toNat := by
  -- Every byte of a longer encoding has its highest bit set.
  have hbig : ∀ n k : ℕ, 128 ≤ k → n + k < 256 → b ≠ UInt8.ofNat (n + k) := by
    rintro n k hk hn rfl
    rw [UInt8.toNat_ofNat'] at hlt
    omega
  unfold String.utf8EncodeChar at hb
  dsimp only at hb
  split at hb
  · rename_i hle
    obtain rfl := List.mem_singleton.1 hb
    rw [UInt8.toNat_ofNat', Nat.mod_eq_of_lt (by omega)]
    rfl
  · exfalso
    split at hb
    · rename_i hle
      simp only [List.mem_cons, List.not_mem_nil, or_false] at hb
      rcases hb with hb | hb
      · exact hbig _ 0xc0 (by omega) (by omega) hb
      · exact hbig _ 0x80 (by omega) (by omega) hb
    · split at hb
      · simp only [List.mem_cons, List.not_mem_nil, or_false] at hb
        rcases hb with hb | hb | hb
        · exact hbig _ 0xe0 (by omega) (by omega) hb
        · exact hbig _ 0x80 (by omega) (by omega) hb
        · exact hbig _ 0x80 (by omega) (by omega) hb
      · simp only [List.mem_cons, List.not_mem_nil, or_false] at hb
        rcases hb with hb | hb | hb | hb
        · exact hbig _ 0xf0 (by omega) (by omega) hb
        · exact hbig _ 0x80 (by omega) (by omega) hb
        · exact hbig _ 0x80 (by omega) (by omega) hb
        · exact hbig _ 0x80 (by omega) (by omega) hb

/-- **ASCII bytes.** -/
theorem mem_encode_ascii {b : UInt8} (hb : b ∈ encode text) (hlt : b.toNat < 128) :
    ∃ c ∈ text.toList, c.toNat = b.toNat := by
  obtain ⟨c, hc, hb⟩ := List.mem_flatMap.1 hb
  exact ⟨c, hc, mem_utf8EncodeChar hb hlt⟩

end Utf8

end Lib
