import Switchboard.Lines
import Mathlib

/-! # The lines of a stream

What the lines of a stream are is said here without any cutting: bodies without a newline, each with
the newline after it, and a rest that has not ended. The reader that takes bytes as they come, and the
cutter that has them all, both find these lines. Frames that were written one a line are among the
streams, and both give them back.
-/

namespace Switchboard.Lines

variable {bytes rest : List UInt8} {ended : List (List UInt8)}

/-- A stream, the lines that have ended in it, and what stands after the last newline. -/
inductive AreLines : List UInt8 → List (List UInt8) → List UInt8 → Prop where
  | rest {rest : List UInt8} (unbroken : newline ∉ rest) : AreLines rest [] rest
  | line {body bytes rest : List UInt8} {ended : List (List UInt8)} (unbroken : newline ∉ body)
    (later : AreLines bytes ended rest) :
    AreLines (body ++ newline :: bytes) ((body ++ [newline]) :: ended) rest

theorem exists_areLines (bytes : List UInt8) : ∃ ended rest, AreLines bytes ended rest := by
  induction bytes with
  | nil => exact ⟨[], [], .rest (by simp)⟩
  | cons b bs ih =>
      obtain ⟨ended, rest, lines⟩ := ih
      by_cases ends : b = newline
      · subst ends
        exact ⟨[newline] :: ended, rest, @AreLines.line [] bs rest ended (by simp) lines⟩
      · cases lines with
        | rest unbroken => exact ⟨[], b :: bs, .rest (by simp [Ne.symm ends, unbroken])⟩
        | @line body bytes _ ended unbroken later =>
            exact ⟨(b :: body ++ [newline]) :: ended, rest,
              @AreLines.line (b :: body) bytes _ ended (by simp [Ne.symm ends, unbroken]) later⟩

section Cutting

theorem cut_of_not_mem (unbroken : newline ∉ rest) : cut rest = if rest = [] then [] else [rest] := by
  induction rest with
  | nil => rfl
  | cons b bs ih =>
      obtain ⟨other, unbroken⟩ := not_or.mp (mt List.mem_cons.mpr unbroken)
      rw [cut, if_neg (Ne.symm other), ih unbroken]
      cases bs <;> simp

theorem cut_line {body : List UInt8} (unbroken : newline ∉ body) (bytes : List UInt8) :
    cut (body ++ newline :: bytes) = (body ++ [newline]) :: cut bytes := by
  induction body with
  | nil => simp [cut]
  | cons b bs ih =>
      obtain ⟨other, unbroken⟩ := not_or.mp (mt List.mem_cons.mpr unbroken)
      rw [List.cons_append, cut, if_neg (Ne.symm other), ih unbroken]
      rfl

theorem AreLines.cut_eq (lines : AreLines bytes ended rest) :
    cut bytes = ended ++ if rest = [] then [] else [rest] := by
  induction lines with
  | rest unbroken => exact cut_of_not_mem unbroken
  | line unbroken _ ih => rw [cut_line unbroken, ih, List.cons_append]

end Cutting

section Feeding

namespace Buffer

theorem feed_of_not_mem (b : Buffer) (unbroken : newline ∉ rest) :
    b.feed rest = ([], ⟨rest.reverse ++ b.held⟩) := by
  induction rest generalizing b with
  | nil => rfl
  | cons byte bs ih =>
      obtain ⟨other, unbroken⟩ := not_or.mp (mt List.mem_cons.mpr unbroken)
      simp [feed, push, Ne.symm other, ih _ unbroken]

theorem feed_line (b : Buffer) {body : List UInt8} (unbroken : newline ∉ body) (bytes : List UInt8) :
    b.feed (body ++ newline :: bytes) =
      ((frame? (b.held.reverse ++ body ++ [newline])).toList ++ (feed {} bytes).1, (feed {} bytes).2) := by
  rw [feed_append, feed_of_not_mem b unbroken]
  simp [feed, push]

theorem feed_lines (lines : AreLines bytes ended rest) :
    feed {} bytes = (ended.filterMap frame?, ⟨rest.reverse⟩) := by
  induction lines with
  | rest unbroken => simp [feed_of_not_mem _ unbroken]
  | @line body _ _ _ unbroken _ ih =>
      rw [feed_line _ unbroken, ih]
      cases found : frame? (body ++ [newline]) <;> simp [found]

end Buffer

end Feeding

section Frames

/-- A line spells a frame: there is nothing after the frame but line breaks, and the frame does not end
with one. -/
structure IsFrame (line : List UInt8) (frame : String) : Prop where
  ends : ∃ c, frame.toList.getLast? = some c ∧ ¬ isBreak c
  spelled : ∃ breaks : String, (∀ c ∈ breaks.toList, isBreak c) ∧
    line = (frame ++ breaks).toUTF8.toList

theorem toList_loop {bytes : ByteArray} {before left : List UInt8}
    (all : bytes.data.toList = before ++ left) (front : List UInt8) :
    ByteArray.toList.loop bytes before.length front = front.reverse ++ left := by
  have size : bytes.size = before.length + left.length := by
    rw [← List.length_append, ← all]
    rfl
  induction left generalizing before front with
  | nil =>
      rw [ByteArray.toList.loop, if_neg (by simp [size]), List.append_nil]
  | cons b left ih =>
      have next : bytes.get! before.length = b := by
        simp [ByteArray.get!, ← Array.getElem!_toList, all]
      rw [ByteArray.toList.loop, if_pos (by simp [size]), next]
      have rest : bytes.data.toList = (before ++ [b]) ++ left := by rw [all, List.append_cons]
      simpa using ih rest (b :: front) (by simp [size]; omega)

theorem toList_eq_data (bytes : ByteArray) : bytes.toList = bytes.data.toList :=
  @toList_loop bytes [] bytes.data.toList rfl []

/-- Bytes are the text that they spell, and only that. -/
theorem text?_eq_some_iff {line : List UInt8} {s : String} :
    text? line = some s ↔ line = s.toUTF8.toList := by
  rw [toList_eq_data]
  unfold text? String.fromUTF8?
  constructor
  · intro read
    split at read
    · cases read
      rfl
    · contradiction
  · rintro rfl
    exact dif_pos s.isValidUTF8

theorem trimBreaks_toList (s : String) : (trimBreaks s).toList = s.toList.rdropWhile isBreak :=
  String.toList_ofList

/-- A text is its trimmed text and line breaks after it. -/
theorem trimBreaks_append_breaks (s : String) :
    ∃ breaks : String, (∀ c ∈ breaks.toList, isBreak c) ∧ s = trimBreaks s ++ breaks := by
  refine ⟨String.ofList (s.toList.rtakeWhile isBreak), ?_, ?_⟩
  · intro c member
    exact List.mem_rtakeWhile_imp (String.toList_ofList ▸ member)
  · apply String.toList_injective
    rw [String.toList_append, trimBreaks_toList, String.toList_ofList,
      List.rdropWhile_append_rtakeWhile]

/-- Nothing is trimmed from a text but the line breaks at its end. -/
theorem trimBreaks_append {frame breaks : String}
    (ends : ∃ c, frame.toList.getLast? = some c ∧ ¬ isBreak c)
    (only : ∀ c ∈ breaks.toList, isBreak c) : trimBreaks (frame ++ breaks) = frame := by
  obtain ⟨c, last, firm⟩ := ends
  obtain ⟨front, spelled⟩ := List.getLast?_eq_some_iff.mp last
  apply String.toList_injective
  rw [trimBreaks_toList, String.toList_append, List.rdropWhile, List.reverse_append,
    List.dropWhile_append_of_pos (by simpa using only), spelled, ← List.rdropWhile,
    List.rdropWhile_concat_neg _ _ _ firm]

theorem trimBreaks_ends {s : String} (filled : trimBreaks s ≠ "") :
    ∃ c, (trimBreaks s).toList.getLast? = some c ∧ ¬ isBreak c := by
  have some : s.toList.rdropWhile isBreak ≠ [] := by
    rw [← trimBreaks_toList]
    exact mt String.toList_eq_nil_iff.mp filled
  refine ⟨_, ?_, List.rdropWhile_last_not isBreak s.toList some⟩
  rw [trimBreaks_toList]
  exact List.getLast?_eq_some_getLast some

/-- What a line gives is what it spells. -/
theorem frame?_eq_some_iff {line : List UInt8} {frame : String} :
    frame? line = some frame ↔ IsFrame line frame := by
  constructor
  · intro given
    unfold frame? at given
    cases read : text? line with
    | none => simp [read] at given
    | some s =>
        simp only [read] at given
        split at given
        · contradiction
        · next filled =>
            cases given
            obtain ⟨breaks, only, spelled⟩ := trimBreaks_append_breaks s
            exact ⟨trimBreaks_ends filled, breaks, only, spelled ▸ text?_eq_some_iff.mp read⟩
  · intro is
    obtain ⟨breaks, only, spelled⟩ := is.spelled
    have filled : frame ≠ "" := by
      rintro rfl
      simpa using is.ends
    simp [frame?, text?_eq_some_iff.mpr spelled, trimBreaks_append is.ends only, filled]

theorem frame?_nil : frame? [] = none := by
  have read : text? [] = some "" := text?_eq_some_iff.mpr (by simp [toList_eq_data])
  simp [frame?, read, trimBreaks]

theorem AreLines.frames_eq (lines : AreLines bytes ended rest) :
    frames bytes = (ended ++ [rest]).filterMap frame? := by
  rw [frames, lines.cut_eq]
  by_cases empty : rest = []
  · simp [empty, frame?_nil]
  · simp [empty]

end Frames

section Writing

theorem toUTF8_toList (s : String) : s.toUTF8.toList = s.toList.flatMap String.utf8EncodeChar := by
  rw [toList_eq_data, String.toUTF8, ← String.utf8Encode_toList, List.utf8Encode,
    List.data_toByteArray]

theorem newline_eq_ofNat {n : Nat} : newline = UInt8.ofNat n ↔ n % 256 = 10 := by
  rw [← UInt8.toNat_inj, UInt8.toNat_ofNat']
  exact eq_comm

/-- No character but the newline has its byte in it: the bytes of longer ones have the high bit. -/
theorem newline_mem_utf8EncodeChar {c : Char} (member : newline ∈ String.utf8EncodeChar c) :
    c = '\n' := by
  apply Char.toNat_inj.mp
  have code : c.val.toNat = 10 := by
    simp only [String.utf8EncodeChar] at member
    split at member
    · simp only [List.mem_singleton, newline_eq_ofNat] at member
      omega
    · exfalso
      repeat' split at member
      all_goals
        simp only [List.mem_cons, List.not_mem_nil, or_false, newline_eq_ofNat] at member
        omega
  exact code

theorem newline_not_mem_toUTF8 {s : String} (unbroken : '\n' ∉ s.toList) :
    newline ∉ s.toUTF8.toList := by
  rw [toUTF8_toList, List.mem_flatMap]
  rintro ⟨c, member, inside⟩
  rw [newline_mem_utf8EncodeChar inside] at member
  exact unbroken member

/-- Neither character that breaks lines stands in the frame. -/
def OneLine (frame : String) : Prop := '\n' ∉ frame.toList ∧ '\r' ∉ frame.toList

instance (frame : String) : Decidable (OneLine frame) :=
  inferInstanceAs (Decidable ('\n' ∉ frame.toList ∧ '\r' ∉ frame.toList))

def lineOf (frame : String) : List UInt8 := frame.toUTF8.toList ++ [newline]

variable {frame : String} {sent : List String}

theorem any_isBreak : frame.toList.any isBreak ↔ ¬ OneLine frame := by
  simp only [List.any_eq_true, isBreak, Bool.or_eq_true, beq_iff_eq, OneLine, ← not_or, not_not]
  constructor
  · rintro ⟨c, member, rfl | rfl⟩
    · exact Or.inl member
    · exact Or.inr member
  · rintro (member | member)
    · exact ⟨'\n', member, Or.inl rfl⟩
    · exact ⟨'\r', member, Or.inr rfl⟩

theorem encode_of_oneLine (fits : OneLine frame) : encode frame = .ok (lineOf frame) := by
  rw [encode, if_neg (any_isBreak.not.mpr (not_not.mpr fits)), lineOf]

theorem encode_of_not_oneLine (broken : ¬ OneLine frame) :
    encode frame = .error (.protocol .lineBreak) := by
  rw [encode, if_pos (any_isBreak.mpr broken)]

theorem isFrame_lineOf (fits : OneLine frame) (filled : frame ≠ "") : IsFrame (lineOf frame) frame := by
  constructor
  · cases last : frame.toList.getLast? with
    | none =>
        rw [List.getLast?_eq_none_iff, String.toList_eq_nil_iff] at last
        exact absurd last filled
    | some c =>
        refine ⟨c, rfl, ?_⟩
        intro breaks
        exact any_isBreak.mp (List.any_eq_true.mpr ⟨c, List.mem_of_getLast? last, breaks⟩) fits
  · refine ⟨"\n", by simp [isBreak], ?_⟩
    rw [lineOf, toUTF8_toList, toUTF8_toList, String.toList_append, List.flatMap_append]
    rfl

theorem areLines_flatMap_lineOf (fits : ∀ frame ∈ sent, OneLine frame) :
    AreLines (sent.flatMap lineOf) (sent.map lineOf) [] := by
  induction sent with
  | nil => exact .rest List.not_mem_nil
  | cons frame sent ih =>
      obtain ⟨first, rest⟩ := List.forall_mem_cons.mp fits
      rw [List.flatMap_cons, List.map_cons, lineOf, List.append_assoc, List.singleton_append]
      exact .line (newline_not_mem_toUTF8 first.1) (ih rest)

theorem filterMap_frame?_lineOf (fits : ∀ frame ∈ sent, OneLine frame) (filled : "" ∉ sent) :
    (sent.map lineOf).filterMap frame? = sent := by
  rw [List.filterMap_map]
  have all : ∀ frame ∈ sent, (frame? ∘ lineOf) frame = some frame := by
    intro frame member
    apply frame?_eq_some_iff.mpr
    exact isFrame_lineOf (fits frame member) (ne_of_mem_of_not_mem member filled)
  rw [List.filterMap_congr all, List.filterMap_some]

/-- Reading lines gives back what was written as lines. -/
theorem frames_flatMap_lineOf (fits : ∀ frame ∈ sent, OneLine frame) (filled : "" ∉ sent) :
    frames (sent.flatMap lineOf) = sent := by
  rw [(areLines_flatMap_lineOf fits).frames_eq, List.filterMap_append,
    filterMap_frame?_lineOf fits filled, List.filterMap_cons_none frame?_nil, List.filterMap_nil,
    List.append_nil]

theorem feed_flatMap_lineOf (fits : ∀ frame ∈ sent, OneLine frame) (filled : "" ∉ sent) :
    Buffer.feed {} (sent.flatMap lineOf) = (sent, {}) := by
  rw [Buffer.feed_lines (areLines_flatMap_lineOf fits), filterMap_frame?_lineOf fits filled]
  rfl

end Writing

end Switchboard.Lines
