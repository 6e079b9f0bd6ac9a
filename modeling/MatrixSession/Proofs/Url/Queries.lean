import MatrixSession.Proofs.Url.Percent
import MatrixSession.Url.Extend
import Mathlib.Data.Bool.AllAny

/-!
Form-encoded queries. A text can be decoded after encoding, and encoded it holds neither of the signs
that part pairs and keys; so a pair that is added to a query is read back behind those that were there.
-/
namespace MatrixSession

namespace Percent

open Utf8 (encodeChars)

def unplus (c : Char) : Char := if c = '+' then ' ' else c

def formChar (c : Char) : List Char :=
  if c = ' ' then ['+']
  else if isFormPlain c then [c]
  else (Utf8.encodeChar c).flatMap encodeByte

theorem encodeForm_cons (c : Char) (text : List Char) :
    encodeForm (c :: text) = formChar c ++ encodeForm text := List.flatMap_cons

theorem ascii_of_alphanum {c : Char} (alphanum : c.isAlphanum = true) : c.toNat < 0x80 := by
  rcases Bool.or_eq_true_iff.mp alphanum with alpha | digit
  · rcases Bool.or_eq_true_iff.mp alpha with upper | lower
    · have most : c.toNat ≤ 0x5A := (of_decide_eq_true upper).2
      omega
    · have most : c.toNat ≤ 0x7A := of_decide_eq_true (Bool.and_eq_true_iff.mp lower).2
      omega
  · have most : c.toNat ≤ 0x39 := (Char.isDigit_iff_toNat.mp digit).2
    omega

theorem ascii_of_formPlain {c : Char} (plain : isFormPlain c = true) : c.toNat < 0x80 := by
  simp only [isFormPlain, Bool.or_eq_true, beq_iff_eq] at plain
  rcases plain with ((((alphanum | rfl) | rfl) | rfl) | rfl)
  · exact ascii_of_alphanum alphanum
  all_goals decide

theorem unplus_encodeBytes (bytes : List UInt8) :
    (bytes.flatMap encodeByte).map unplus = bytes.flatMap encodeByte := by
  have kept : ∀ c ∈ bytes.flatMap encodeByte, unplus c = id c := by
    intro c mem
    refine if_neg ?_
    rintro rfl
    exact absurd (mem_encodeBytes mem) (by decide)
  rw [List.map_congr_left kept, List.map_id]

theorem decode_formChar (c : Char) (rest : List UInt8) :
    decode (encodeChars ((formChar c).map unplus) ++ rest) = Utf8.encodeChar c ++ decode rest := by
  unfold formChar
  split_ifs with space plain
  · subst space
    exact decode_plain (by decide) rest
  · have kept : unplus c = c := by
      refine if_neg ?_
      rintro rfl
      contradiction
    have other : c ≠ '%' := by
      rintro rfl
      contradiction
    rw [List.map_singleton, kept, Utf8.encodeChars_cons, Utf8.encodeChars_nil, List.append_nil]
    exact decode_char (ascii_of_formPlain plain) other rest
  · rw [unplus_encodeBytes, decode_encodeBytes]

theorem decode_encodeForm (text : List Char) :
    decode (encodeChars ((encodeForm text).map unplus)) = encodeChars text := by
  induction text with
  | nil => rfl
  | cons c text ih =>
    rw [encodeForm_cons, List.map_append, Utf8.encodeChars_append, decode_formChar, ih,
      Utf8.encodeChars_cons]

theorem decodeForm_encodeForm (text : List Char) :
    decodeForm (encodeForm text) = String.ofList text := by
  have decoded : decodeForm (encodeForm text) = Utf8.lossy (encodeChars text) :=
    congrArg Utf8.lossy (decode_encodeForm text)
  rw [decoded, Utf8.lossy, Utf8.units_encodeChars, List.map_map]
  exact congrArg String.ofList (List.map_id text)

theorem encodeForm_closed (text : List Char) : ∀ c ∈ ['&', '='], c ∉ encodeForm text := by
  have signs : ∀ c ∈ ['&', '='],
      c ≠ '+' ∧ isFormPlain c = false ∧ c ∉ "%0123456789ABCDEF".toList :=
    List.all_iff_forall_prop.mp (by decide)
  intro c sign mem
  have other := signs c sign
  obtain ⟨d, -, mem⟩ := List.mem_flatMap.mp mem
  change c ∈ formChar d at mem
  unfold formChar at mem
  split_ifs at mem with space plain
  · exact other.1 (List.mem_singleton.mp mem)
  · obtain rfl := List.mem_singleton.mp mem
    exact Bool.false_ne_true (other.2.1.symm.trans plain)
  · exact other.2.2 (mem_encodeBytes mem)

end Percent

namespace Url

def readQuery (text : List Char) : List (String × String) :=
  ((Text.splitAll (· == '&') text).filter fun part => !part.isEmpty).map readPair

theorem queryPairs_eq (u : Url) : u.queryPairs = readQuery (u.query.getD "").toList := rfl

theorem readQuery_append (left right : List Char) :
    readQuery (left ++ '&' :: right) = readQuery left ++ readQuery right := by
  rw [readQuery, Text.splitAll_append (by decide), List.filter_append, List.map_append]
  rfl

theorem readQuery_pair (key value : String) :
    readQuery (queryPair key value).toList = [(key, value)] := by
  have closed := Percent.encodeForm_closed
  have spelled : (queryPair key value).toList =
      Percent.encodeForm key.toList ++ '=' :: Percent.encodeForm value.toList :=
    String.toList_ofList
  have whole : ∀ c ∈ (queryPair key value).toList, (c == '&') = false := by
    intro c mem
    refine beq_false_of_ne ?_
    rintro rfl
    rw [spelled, List.mem_append, List.mem_cons] at mem
    obtain front | equal | back := mem
    · exact closed key.toList '&' (by simp) front
    · contradiction
    · exact closed value.toList '&' (by simp) back
  have cut : Text.splitFirst? '=' (queryPair key value).toList =
      some (Percent.encodeForm key.toList, Percent.encodeForm value.toList) :=
    Text.splitFirst?_eq_some_iff.mpr ⟨spelled, closed key.toList '=' (by simp)⟩
  have nonempty : (queryPair key value).toList.isEmpty = false := by simp [spelled]
  rw [readQuery, Text.splitAll_free whole, List.filter_cons_of_pos (by simp [nonempty]),
    List.filter_nil, List.map_singleton, readPair, cut]
  simp only [Percent.decodeForm_encodeForm, String.ofList_toList]

/-- An added pair is read back behind those that were there. -/
theorem queryPairs_withQueryPair (u : Url) (key value : String) :
    (u.withQueryPair key value).queryPairs = u.queryPairs ++ [(key, value)] := by
  have pair := readQuery_pair key value
  rw [queryPairs_eq, queryPairs_eq, withQueryPair]
  cases u.query with
  | none => exact pair
  | some query =>
    by_cases empty : query = ""
    · simp only [empty, if_true, Option.getD_some]
      exact pair
    · have joined : (query ++ "&" ++ queryPair key value).toList =
          query.toList ++ '&' :: (queryPair key value).toList := by simp
      simp only [empty, if_false, Option.getD_some, joined, readQuery_append, pair]

def withQueryPairs (u : Url) (pairs : List (String × String)) : Url :=
  pairs.foldl (fun url pair => url.withQueryPair pair.1 pair.2) u

theorem queryPairs_withQueryPairs (u : Url) (pairs : List (String × String)) :
    (u.withQueryPairs pairs).queryPairs = u.queryPairs ++ pairs := by
  induction pairs generalizing u with
  | nil => exact (List.append_nil _).symm
  | cons pair pairs ih =>
    rw [withQueryPairs, List.foldl_cons, ← withQueryPairs, ih, queryPairs_withQueryPair,
      List.append_assoc]
    rfl

theorem withQueryPairs_eq (u : Url) (pairs : List (String × String)) :
    u.withQueryPairs pairs = { u with query := (u.withQueryPairs pairs).query } := by
  induction pairs generalizing u with
  | nil => rfl
  | cons pair pairs ih => exact ih (u.withQueryPair pair.1 pair.2)

end Url

end MatrixSession
