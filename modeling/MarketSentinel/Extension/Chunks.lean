import MarketSentinel.Extension.Client
import MarketSentinel.Lib.Lossy

/-!
# The chunks of a stream

The child's stdout comes in chunks of bytes, each of which is decoded by itself.

* `pushes_eq`: the lines of some chunks are those of the decoded chunks together.
* `linesOf_eq_iff`: mangled characters show in the lines.
* `jsonl_chunks_iff`: when the lines do not depend on how the stream is cut into chunks.
-/

namespace MarketSentinel.Extension

open Lib Utf8

/-! ## The decoder on chunks -/

namespace JsonlDecoder

/-- `push` of a `Buffer`. -/
def pushBuffer (buffer : List Char) (chunk : List UInt8) : List String × List Char :=
  push buffer (String.ofList (lossy chunk))

/-- One `push` after the other: the lines of all chunks, and the last buffer. -/
def pushes (buffer : List Char) : List (List UInt8) → List String × List Char
  | [] => ([], buffer)
  | chunk :: rest =>
    let (lines, buffer) := pushBuffer buffer chunk
    let (more, buffer) := pushes buffer rest
    (lines ++ more, buffer)

/-- The lines of a text that are emitted. -/
def linesOf (text : List Char) : List (List Char) :=
  (((text.splitOn '\n').dropLast.map withoutReturn).filter fun line => !line.all isJsSpace)

theorem push_eq (buffer : List Char) (chunk : String) :
    push buffer chunk = ((linesOf (buffer ++ chunk.toList)).map String.ofList,
      ((buffer ++ chunk.toList).splitOn '\n').getLast?.getD []) := rfl

/-- What is left in the buffer. -/
def rest (text : List Char) : List Char := (text.splitOn '\n').getLast?.getD []

/-- The lines of a text and of what follows, with the part of a line between them. -/
theorem linesOf_append (text more : List Char) :
    linesOf (text ++ more) = linesOf text ++ linesOf (rest text ++ more) := by
  obtain ⟨lines, part, rfl, hpart, hlines⟩ := Lines.exists_join '\n' text
  have hne : (part ++ more).splitOn '\n' ≠ [] := List.splitOnP_ne_nil _ _
  unfold linesOf rest
  rw [List.append_assoc, Lines.splitOn_join_append hlines, Lines.splitOn_join_append hlines,
    Lines.splitOn_of_notMem hpart, List.getLast?_concat, Option.getD_some, List.dropLast_concat,
    List.dropLast_append_of_ne_nil hne, List.map_append, List.filter_append]

theorem notMem_rest (text : List Char) : '\n' ∉ rest text := by
  obtain ⟨lines, part, rfl, hpart, hlines⟩ := Lines.exists_join '\n' text
  unfold rest
  rw [Lines.splitOn_join_append hlines, Lines.splitOn_of_notMem hpart, List.getLast?_concat, Option.getD_some]
  exact hpart

theorem linesOf_of_notMem {text : List Char} (h : '\n' ∉ text) : linesOf text = [] := by
  unfold linesOf
  rw [Lines.splitOn_of_notMem h]
  rfl

/-- **The lines of some chunks** are those of the decoded chunks together. -/
theorem pushes_eq {buffer : List Char} (h : '\n' ∉ buffer) (chunks : List (List UInt8)) :
    (pushes buffer chunks).1 = (linesOf (buffer ++ chunks.flatMap lossy)).map String.ofList := by
  induction chunks generalizing buffer with
  | nil =>
    rw [List.flatMap_nil, List.append_nil, linesOf_of_notMem h]
    rfl
  | cons chunk chunks ih =>
    have hpush : pushBuffer buffer chunk =
        ((linesOf (buffer ++ lossy chunk)).map String.ofList, rest (buffer ++ lossy chunk)) := by
      unfold pushBuffer
      rw [push_eq, String.toList_ofList]
      rfl
    unfold pushes
    rw [hpush]
    dsimp only
    rw [ih (notMem_rest _), ← List.map_append, ← linesOf_append, List.flatMap_cons, List.append_assoc]

/-! ## Mangled lines -/

/-- A line as it is emitted, if it is. -/
def emitted (line : List Char) : List (List Char) :=
  if (withoutReturn line).all isJsSpace then [] else [withoutReturn line]

theorem linesOf_eq (text : List Char) : linesOf text = (text.splitOn '\n').dropLast.flatMap emitted := by
  unfold linesOf
  induction (text.splitOn '\n').dropLast with
  | nil => rfl
  | cons line lines ih =>
    rw [List.map_cons, List.flatMap_cons, ← ih]
    unfold emitted
    cases hblank : (withoutReturn line).all isJsSpace <;> simp [hblank]

theorem length_withoutReturn (line : List Char) : (withoutReturn line).length =
    if line.getLast? = some '\r' then line.length - 1 else line.length := by
  unfold withoutReturn
  split <;> simp

/-- How long a line is when it is emitted. -/
theorem length_emitted_le (line : List Char) :
    (emitted line).flatten.length ≤ (withoutReturn line).length := by
  unfold emitted
  split <;> simp

variable {line line' : List Char}

/-- **A mangled line is emitted longer.** -/
theorem length_emitted_lt (h : Mangled line line') (hne : line' ≠ line) :
    (emitted line).flatten.length < (emitted line').flatten.length := by
  obtain ⟨hlength, hmem⟩ := h.eq_or.resolve_left hne
  have hkept : replacement ∈ withoutReturn line' := by
    unfold withoutReturn
    split
    · rename_i hlast
      obtain ⟨init, rfl⟩ := List.getLast?_eq_some_iff.1 hlast
      rw [List.dropLast_concat]
      rcases List.mem_append.1 hmem with hmem | hmem
      · exact hmem
      · exact absurd (List.mem_singleton.1 hmem) (by decide)
    · exact hmem
  have hshown : (withoutReturn line').all isJsSpace = false := by
    rw [List.all_eq_false]
    exact ⟨replacement, hkept, by decide⟩
  -- A return that ends the mangled line ended the line as well, so no more is cut off.
  have hlonger : (withoutReturn line).length < (withoutReturn line').length := by
    have hlast := @Mangled.getLast? _ _ '\r' h (by decide)
    have hpos := List.length_pos_of_mem hmem
    rw [length_withoutReturn, length_withoutReturn]
    split <;> split
    · rename_i hyes _
      have hpos' := List.length_pos_of_mem (List.mem_of_getLast? hyes)
      omega
    · omega
    · rename_i hno hyes
      exact absurd (hlast hyes) hno
    · exact hlength
  have hle := length_emitted_le line
  have hout : (emitted line').flatten = withoutReturn line' := by
    unfold emitted
    rw [hshown]
    simp
  rw [hout]
  omega

/-- **Mangled characters show in the lines.** -/
theorem lines_eq_of_emitted {lines lines' : List (List Char)} (h : List.Forall₂ Mangled lines lines') :
    (lines.flatMap emitted).flatten.length ≤ (lines'.flatMap emitted).flatten.length ∧
      ((lines.flatMap emitted).flatten.length = (lines'.flatMap emitted).flatten.length → lines' = lines) := by
  induction h with
  | nil => exact ⟨le_rfl, fun _ => rfl⟩
  | @cons line line' lines lines' hline hlines ih =>
    simp only [List.flatMap_cons, List.flatten_append, List.length_append]
    by_cases hsame : line' = line
    · subst hsame
      refine ⟨by omega, fun heq => ?_⟩
      rw [ih.2 (by omega)]
    · have hlt := length_emitted_lt hline hsame
      exact ⟨by omega, fun heq => by omega⟩

/-- After the last newline nothing is emitted. -/
theorem linesOf_body (text : List Char) : linesOf (Lines.body '\n' text) = linesOf text := by
  obtain ⟨lines, part, rfl, hpart, hlines⟩ := Lines.exists_join '\n' text
  rw [Lines.body_join_append lines hpart]
  unfold linesOf
  rw [Lines.splitOn_join_append hlines, Lines.splitOn_of_notMem hpart, Lines.splitOn_join hlines,
    List.dropLast_concat, List.dropLast_concat]

/-- **The lines tell the text up to its last newline**, as far as it can be mangled. -/
theorem linesOf_eq_iff {text text' : List Char} (h : Mangled text text') :
    linesOf text' = linesOf text ↔ Lines.body '\n' text' = Lines.body '\n' text := by
  have hlines : List.Forall₂ Mangled (text.splitOn '\n').dropLast (text'.splitOn '\n').dropLast := by
    have hall := @Mangled.splitOn _ _ '\n' h (by decide)
    rw [List.dropLast_eq_take, List.dropLast_eq_take, hall.length_eq]
    exact List.forall₂_take _ hall
  constructor
  · intro heq
    rw [linesOf_eq, linesOf_eq] at heq
    rw [← Lines.join_dropLast_splitOn, ← Lines.join_dropLast_splitOn,
      (lines_eq_of_emitted hlines).2 (by rw [heq])]
  · intro heq
    rw [← linesOf_body text', heq, linesOf_body text]

end JsonlDecoder

/-! ## Chunk invariance -/

/-- **When the lines do not depend on the chunks.** For a stream that is the encoding of a text, in any chunks,
the lines of all chunks are those of the stream in one chunk just when every chunk that a newline follows in a
later one is well formed by itself, that is, when the cuts before the last newline are between characters. -/
theorem jsonl_chunks_iff {text : String} {chunks : List (List UInt8)} (h : chunks.flatten = encode text) :
    (JsonlDecoder.pushes [] chunks).1 = (JsonlDecoder.pushBuffer [] (encode text)).1 ↔ Aligned 10 chunks := by
  obtain ⟨decoded, hdecoded, hmangled⟩ := @mangled_chunks chunks [] text.toList (by simp) h
  have hchunks : chunks.flatMap lossy = decoded := hdecoded
  have hwhole := lossy_flatMap_append text.toList []
  have hlossy : lossy [] = [] := rfl
  rw [List.append_nil, hlossy, List.append_nil] at hwhole
  have haligned := @aligned_iff '\n' (by decide) chunks text.toList h
  have hnewline : UInt8.ofNat '\n'.toNat = 10 := rfl
  rw [hnewline, hchunks, ← JsonlDecoder.linesOf_eq_iff hmangled] at haligned
  unfold JsonlDecoder.pushBuffer
  rw [JsonlDecoder.push_eq, JsonlDecoder.pushes_eq List.not_mem_nil, String.toList_ofList, haligned, hchunks]
  unfold encode
  rw [hwhole, List.nil_append, List.nil_append]
  have hinj : Function.Injective String.ofList := fun a b hab => by
    rw [← String.toList_ofList (l := a), hab, String.toList_ofList]
  exact (List.map_injective_iff.2 hinj).eq_iff

/-- **A character that is cut by a chunk** comes out as two replacements. -/
theorem jsonl_chunks_cut : [[0xc3], [0xa9, 10]].flatten = encode "é\n" ∧
    (JsonlDecoder.pushes [] [[0xc3], [0xa9, 10]]).1 = ["\ufffd\ufffd"] ∧
    (JsonlDecoder.pushBuffer [] (encode "é\n")).1 = ["é"] := by
  decide +kernel

/-- A cut inside a CRLF pair. -/
theorem jsonl_chunks_return : (JsonlDecoder.pushes [] [[0xc3, 0xa9, 13], [10]]).1 =
    (JsonlDecoder.pushBuffer [] (encode "é\r\n")).1 := by
  have hflat : [[0xc3, 0xa9, 13], [10]].flatten = encode "é\r\n" := by decide +kernel
  refine (jsonl_chunks_iff hflat).2 ⟨fun _ => ?_, fun hmem => absurd hmem List.not_mem_nil, trivial⟩
  decide +kernel

end MarketSentinel.Extension
