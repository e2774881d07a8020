import ProfileCompiler.Fingerprint
import ProfileCompiler.Proofs.Json.Texts

/-!
# Fingerprints of lists of texts

A list of texts always has a source.  It is JSON that can be read back, so different lists of texts
have different sources (`Fingerprint.source?_texts_inj`).  The source is ASCII, and the message that
is digested is its UTF-8 form (`Fingerprint.toUTF8_row`).  So two lists of texts share a fingerprint
only if the digests of two different messages start with the same bytes
(`Fingerprint.ofSource_row_eq_iff`).
-/

namespace ProfileCompiler

/-! ## Hexadecimal digits of bytes -/

namespace Sha256

lemma hexDigits_cons (b : UInt8) (bytes : List UInt8) :
    hexDigits (b :: bytes) =
      Nat.digitChar (b.toNat / 16) :: Nat.digitChar (b.toNat % 16) :: hexDigits bytes := rfl

/-- Two digits belong to each byte. -/
lemma take_hexDigits (n : Nat) (bytes : List UInt8) :
    (hexDigits bytes).take (2 * n) = hexDigits (bytes.take n) := by
  induction bytes generalizing n with
  | nil => rw [List.take_nil, hexDigits, List.flatMap_nil, List.take_nil]
  | cons b bytes ih =>
    cases n with
    | zero => rfl
    | succ n =>
      rw [hexDigits_cons, Nat.mul_succ, List.take_succ_cons, List.take_succ_cons, ih,
        List.take_succ_cons, hexDigits_cons]

lemma digitChar_inj {d e : Nat} (hd : d < 16) (he : e < 16)
    (h : Nat.digitChar d = Nat.digitChar e) : d = e := by
  have hsome : some d = some e := by
    rw [← Text.hexValue?_digitChar hd, ← Text.hexValue?_digitChar he, h]
  exact Option.some.inj hsome

/-- Different bytes have different digits. -/
lemma hexDigits_inj {xs ys : List UInt8} : hexDigits xs = hexDigits ys ↔ xs = ys := by
  refine ⟨fun h => ?_, congrArg hexDigits⟩
  induction xs generalizing ys with
  | nil =>
    cases ys with
    | nil => rfl
    | cons y ys => cases h
  | cons x xs ih =>
    cases ys with
    | nil => cases h
    | cons y ys =>
      rw [hexDigits_cons, hexDigits_cons, List.cons.injEq, List.cons.injEq] at h
      obtain ⟨hhigh, hlow, hrest⟩ := h
      have hx := x.toNat_lt
      have hy := y.toNat_lt
      have hdiv := digitChar_inj (by omega) (by omega) hhigh
      have hmod := digitChar_inj (by omega) (by omega) hlow
      have hbyte : x = y := UInt8.toNat_inj.1 (by omega)
      rw [hbyte, ih hrest]

end Sha256

/-! ## Sources and messages -/

namespace Fingerprint

open Json (row)
open Value (texts)

/-- Two different messages whose digests start with the same eight bytes, which is all that
fingerprints keep of digests. -/
def Collide (m n : List UInt8) : Prop :=
  m ≠ n ∧ (Sha256.digest m).take 8 = (Sha256.digest n).take 8

lemma ofSource_eq (source : List Char) :
    ofSource source =
      String.ofList (Sha256.hexDigits ((Sha256.digest (message source)).take 8)) := by
  rw [← Sha256.take_hexDigits]
  rfl

/-- A list of texts has a source. -/
lemma source?_texts (ps : List String) : source? (texts ps) = some (row ps) :=
  Json.write?_texts ps

lemma ofList?_texts (ps : List String) : ofList? (texts ps) = some (ofSource (row ps)) := by
  rw [ofList?, source?_texts]
  rfl

lemma row_inj {p q : List String} : row p = row q ↔ p = q := by
  refine ⟨fun h => ?_, fun h => by rw [h]⟩
  have hread : Json.read (row p) = .ok (.list (texts q)) := by
    rw [h]
    exact Json.read_row q
  have hlists : Value.list (texts p) = .list (texts q) :=
    Except.ok.inj ((Json.read_row p).symm.trans hread)
  exact Value.texts_injective (Value.list.inj hlists)

/-- Different lists of texts have different sources. -/
theorem source?_texts_inj {p q : List String} :
    source? (texts p) = source? (texts q) ↔ p = q := by
  rw [source?_texts, source?_texts, Option.some.injEq, row_inj]

lemma utf8EncodeChar_of_ascii {c : Char} (h : c.toNat < 0x80) :
    String.utf8EncodeChar c = [UInt8.ofNat c.toNat] :=
  if_pos (Nat.le_of_lt_succ h)

/-- The message for a list of texts is its source in UTF-8. -/
theorem toUTF8_row (ps : List String) :
    (String.ofList (row ps)).toUTF8 = (message (row ps)).toByteArray := by
  have hbytes : (row ps).flatMap String.utf8EncodeChar = message (row ps) := by
    have hascii := Json.isAscii_row ps
    rw [message, List.map_eq_flatMap]
    exact List.flatMap_congr fun c hc => utf8EncodeChar_of_ascii (hascii c hc)
  rw [← hbytes]
  rfl

lemma message_row_inj {p q : List String} : message (row p) = message (row q) ↔ p = q := by
  refine ⟨fun h => ?_, fun h => by rw [h]⟩
  have hutf8 : (String.ofList (row p)).toUTF8 = (String.ofList (row q)).toUTF8 := by
    rw [toUTF8_row, toUTF8_row, h]
  exact row_inj.1 (String.ofList_injective (String.toByteArray_inj.1 hutf8))

/-! ## Collisions -/

/-- Lists of texts have one fingerprint if they are one list or their messages collide. -/
theorem ofSource_row_eq_iff {p q : List String} :
    ofSource (row p) = ofSource (row q) ↔
      p = q ∨ Collide (message (row p)) (message (row q)) := by
  rw [ofSource_eq, ofSource_eq, String.ofList_inj, Sha256.hexDigits_inj, Collide, ne_eq,
    message_row_inj]
  constructor
  · intro h
    by_cases hpq : p = q
    · exact Or.inl hpq
    · exact Or.inr ⟨hpq, h⟩
  · rintro (rfl | ⟨-, h⟩)
    · rfl
    · exact h

end Fingerprint

end ProfileCompiler
