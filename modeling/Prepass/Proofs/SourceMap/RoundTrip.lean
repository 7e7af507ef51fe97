/- Mappings are read back as they were written. -/
import Prepass.Proofs.Text.Join
import Prepass.SourceMap.Document
namespace Prepass

namespace Vlq

theorem value?_digit : ∀ n < 64, value? (digit n) = some n := by decide +kernel

theorem digit_ne_comma : ∀ n < 64, digit n ≠ ',' := by decide +kernel

theorem digit_ne_semicolon : ∀ n < 64, digit n ≠ ';' := by decide +kernel

theorem unfold_fold (n : Int) : unfold (fold n) = n := by
  unfold unfold fold
  split <;> split <;> omega

theorem exists_digit_of_mem_encodeNat {n : Nat} {c : CodePoint} (h : c ∈ encodeNat n) :
    ∃ d < 64, c = digit d := by
  induction n using encodeNat.induct with
  | case1 n hn =>
      rw [encodeNat, if_pos hn, List.mem_singleton] at h
      exact ⟨n, by omega, h⟩
  | case2 n hn ih =>
      rw [encodeNat, if_neg hn, List.mem_cons] at h
      rcases h with h | h
      · exact ⟨n % 32 + 32, by omega, h⟩
      · exact ih h

theorem comma_not_mem_encode (n : Int) : CodePoint.ofChar ',' ∉ encode n := by
  intro h
  obtain ⟨d, hd, he⟩ := exists_digit_of_mem_encodeNat h
  exact digit_ne_comma d hd he.symm

theorem semicolon_not_mem_encode (n : Int) : CodePoint.ofChar ';' ∉ encode n := by
  intro h
  obtain ⟨d, hd, he⟩ := exists_digit_of_mem_encodeNat h
  exact digit_ne_semicolon d hd he.symm

/-- Reading one quantity of which the low `shift` bits are known. The induction is on the groups of
bits that are left. -/
theorem decodeFrom_encodeNat (n shift value : Nat) (rest : Text) :
    decodeFrom shift value (encodeNat n ++ rest) =
      (decodeFrom 0 0 rest).map (unfold (value + n <<< shift) :: ·) := by
  induction n using encodeNat.induct generalizing shift value with
  | case1 n hn =>
      rw [encodeNat, if_pos hn, List.singleton_append, decodeFrom, value?_digit n (by omega)]
      simp only [Nat.mod_eq_of_lt hn, Nat.not_le.mpr hn, if_false]
  | case2 n hn ih =>
      have hd : n % 32 + 32 < 64 := by omega
      have hm : (n % 32 + 32) % 32 = n % 32 := by omega
      have hsplit : n % 32 + (n / 32) <<< 5 = n := by omega
      have hv : value + (n % 32) <<< shift + (n / 32) <<< (shift + 5) = value + n <<< shift := by
        rw [Nat.add_comm shift, Nat.shiftLeft_add, Nat.add_assoc, Nat.shiftLeft_eq (n % 32),
          Nat.shiftLeft_eq _ shift, ← Nat.add_mul, hsplit, Nat.shiftLeft_eq]
      rw [encodeNat, if_neg hn, List.cons_append, decodeFrom, value?_digit _ hd]
      simp only [hm, Nat.le_add_left, if_true, ih, hv]

theorem decodeFrom_encode (n : Int) (rest : Text) :
    decodeFrom 0 0 (encode n ++ rest) = (decodeFrom 0 0 rest).map (n :: ·) := by
  rw [encode, decodeFrom_encodeNat, Nat.zero_add, Nat.shiftLeft_zero, unfold_fold]

theorem encode_ne_nil (n : Int) : encode n ≠ [] := by
  rw [encode, encodeNat]
  split <;> simp

end Vlq

/-- A segment of the only source, as it is read back. -/
def Segment.decoded (s : Segment) : DecodedSegment := ⟨s.generated, some (0, s.line, s.column)⟩

namespace Mappings

theorem decode_encodeSegment (generated : Int) (cursor : Cursor) (s : Segment) :
    Vlq.decode (encodeSegment generated cursor s) =
      .ok [s.generated - generated, 0, s.line - cursor.line, s.column - cursor.column] := by
  have hl : encodeSegment generated cursor s =
      Vlq.encode (s.generated - generated) ++ (Vlq.encode 0 ++ (Vlq.encode (s.line - cursor.line) ++
        (Vlq.encode (s.column - cursor.column) ++ []))) := by
    simp only [encodeSegment, List.append_assoc, List.append_nil]
  rw [Vlq.decode, hl, Vlq.decodeFrom_encode, Vlq.decodeFrom_encode, Vlq.decodeFrom_encode,
    Vlq.decodeFrom_encode]
  rfl

theorem encodeSegment_ne_nil (generated : Int) (cursor : Cursor) (s : Segment) :
    encodeSegment generated cursor s ≠ [] := by
  simp only [encodeSegment, ne_eq, List.append_eq_nil_iff, Vlq.encode_ne_nil, false_and,
    not_false_eq_true]

theorem comma_not_mem_encodeSegment (generated : Int) (cursor : Cursor) (s : Segment) :
    CodePoint.ofChar ',' ∉ encodeSegment generated cursor s := by
  simp only [encodeSegment, List.mem_append, Vlq.comma_not_mem_encode, or_self, not_false_eq_true]

theorem semicolon_not_mem_encodeSegment (generated : Int) (cursor : Cursor) (s : Segment) :
    CodePoint.ofChar ';' ∉ encodeSegment generated cursor s := by
  simp only [encodeSegment, List.mem_append, Vlq.semicolon_not_mem_encode, or_self,
    not_false_eq_true]

/-- Every text of an encoded line is that of some segment. -/
theorem exists_of_mem_encodeLine {generated : Int} {cursor : Cursor} {segments : List Segment}
    {t : Text} (h : t ∈ (encodeLine generated cursor segments).1) :
    ∃ g c s, t = encodeSegment g c s := by
  induction segments generalizing generated cursor with
  | nil => cases h
  | cons s rest ih =>
      rcases List.mem_cons.mp h with rfl | h
      · exact ⟨generated, cursor, s, rfl⟩
      · exact ih h

/-- Reading a text that is not empty and holds a place. -/
theorem decodeLine_cons {t : Text} (hne : t ≠ []) {step source line column : Int}
    (ht : Vlq.decode t = .ok [step, source, line, column]) (generated : Int) (cursor : Cursor)
    (rest : List Text) :
    decodeLine generated cursor (t :: rest) =
      (decodeLine (generated + step)
        ⟨cursor.source + source, cursor.line + line, cursor.column + column⟩ rest).map fun r =>
          (⟨generated + step,
            some (cursor.source + source, cursor.line + line, cursor.column + column)⟩ :: r.1, r.2) := by
  rw [decodeLine.eq_3 _ _ _ _ hne, ht]
  rfl

theorem decodeLine_encodeLine (generated : Int) (cursor : Cursor) (segments : List Segment)
    (hc : cursor.source = 0) :
    decodeLine generated cursor (encodeLine generated cursor segments).1 =
      .ok (segments.map Segment.decoded, (encodeLine generated cursor segments).2) := by
  induction segments generalizing generated cursor with
  | nil => rfl
  | cons s rest ih =>
      have hg : generated + (s.generated - generated) = s.generated := by omega
      have hl : cursor.line + (s.line - cursor.line) = s.line := by omega
      have hk : cursor.column + (s.column - cursor.column) = s.column := by omega
      simp only [encodeLine, List.map_cons, Segment.decoded]
      rw [decodeLine_cons (encodeSegment_ne_nil _ _ _) (decode_encodeSegment _ _ _), hg, hl, hk,
        Int.add_zero, ih s.generated ⟨cursor.source, s.line, s.column⟩ hc, hc]
      rfl

theorem encodeLine_source (generated : Int) (cursor : Cursor) (segments : List Segment) :
    (encodeLine generated cursor segments).2.source = cursor.source := by
  induction segments generalizing generated cursor with
  | nil => rfl
  | cons s rest ih => exact ih s.generated _

/-- The texts of a line are found again between the commas; of none an empty text is left. -/
theorem decodeLine_splitOn (generated : Int) (cursor : Cursor) (segments : List Segment) :
    decodeLine 0 cursor (Text.splitOn ',' (Text.join "," (encodeLine generated cursor segments).1)) =
      decodeLine 0 cursor (encodeLine generated cursor segments).1 := by
  cases segments with
  | nil => rfl
  | cons s rest =>
      congr 1
      apply Text.splitOn_join
      · simp [encodeLine]
      · intro t ht
        obtain ⟨g, c, s, rfl⟩ := exists_of_mem_encodeLine ht
        exact comma_not_mem_encodeSegment g c s

theorem decodeLines_encodeLines (cursor : Cursor) (lines : List (List Segment))
    (hc : cursor.source = 0) :
    decodeLines cursor (encodeLines cursor lines) =
      .ok (lines.map (List.map Segment.decoded)) := by
  induction lines generalizing cursor with
  | nil => rfl
  | cons segments rest ih =>
      simp only [encodeLines, decodeLines, decodeLine_splitOn, decodeLine_encodeLine 0 cursor segments hc]
      have hi := ih (encodeLine 0 cursor segments).2 (by rw [encodeLine_source, hc])
      simp only [bind, Except.bind, hi, pure, Except.pure, List.map_cons]

theorem semicolon_not_mem_encodeLines {cursor : Cursor} {lines : List (List Segment)} {t : Text}
    (h : t ∈ encodeLines cursor lines) : CodePoint.ofChar ';' ∉ t := by
  induction lines generalizing cursor with
  | nil => cases h
  | cons segments rest ih =>
      rcases List.mem_cons.mp h with rfl | h
      · refine Text.not_mem_join (by decide) fun t ht => ?_
        obtain ⟨g, c, s, rfl⟩ := exists_of_mem_encodeLine ht
        exact semicolon_not_mem_encodeSegment g c s
      · exact ih h

/-- At least one line is needed, since the empty text is read as one line. -/
theorem decode_encode_lines {lines : List (List Segment)} (h : lines ≠ []) :
    decode (encode lines) = .ok (lines.map (List.map Segment.decoded)) := by
  rw [decode, encode]
  have hs : Text.splitOn ';' (Text.join ";" (encodeLines {} lines)) = encodeLines {} lines := by
    apply Text.splitOn_join
    · cases lines with
      | nil => exact absurd rfl h
      | cons segments rest => simp [encodeLines]
    · exact fun t ht => semicolon_not_mem_encodeLines ht
  rw [hs, decodeLines_encodeLines {} lines rfl]

end Mappings

namespace SourceMap

/-- The lines that a source map is made of are read back from its mappings, empty ones included, with
each segment where it was and in the only source. -/
theorem decode_mappings_ofLines (file : Text) (content : Option Text)
    {lines : List (List Segment)} (h : lines ≠ []) :
    Mappings.decode (ofLines file content lines).mappings =
      .ok (lines.map (List.map fun s => ⟨s.generated, some (0, s.line, s.column)⟩)) := by
  have hs : (fun s : Segment => (⟨s.generated, some (0, s.line, s.column)⟩ : DecodedSegment)) =
      Segment.decoded := rfl
  rw [ofLines, hs]
  exact Mappings.decode_encode_lines h

/-- Steps in both directions, far ones among them, and across an empty line. -/
def zigzag : List (List Segment) :=
  [[⟨5, -3, 1000⟩, ⟨-70, 2, 0⟩], [], [⟨0, 0, 1099511627776⟩, ⟨0, -1, -1⟩]]

theorem decode_mappings_zigzag :
    zigzag ≠ [] ∧ Mappings.decode (ofLines "f.js" none zigzag).mappings =
      .ok [[⟨5, some (0, -3, 1000)⟩, ⟨-70, some (0, 2, 0)⟩], [],
        [⟨0, some (0, 0, 1099511627776)⟩, ⟨0, some (0, -1, -1)⟩]] :=
  ⟨List.cons_ne_nil _ _, decode_mappings_ofLines "f.js" none (List.cons_ne_nil _ _)⟩

end SourceMap

end Prepass
