import MatrixSession.Proofs.Http.Grammar
import MatrixSession.Proofs.Text.Blank

/-!
Reading heads. What was read stays read when more bytes come, and a head is read off the bytes it is
written with, neither earlier nor later.
-/
namespace MatrixSession.Http

open Text (takeWhile_stops dropWhile_stops head_of_dropWhile trimmed_solid)

section Lines

theorem statusLine?_line {old : Bool} {status : UInt16} {line : List Char}
    (written : StatusLine old status line) : statusLine? line = some (old, status) := by
  obtain ⟨digits, three, value, proper, apart, legal⟩ := written
  rename_i code reason
  have split : Text.splitFirst? ' '
      ((if old then "HTTP/1.0" else "HTTP/1.1").toList ++ ' ' :: (code ++ reason)) =
        some ((if old then "HTTP/1.0" else "HTTP/1.1").toList, code ++ reason) := by
    refine Text.splitFirst?_eq_some_iff.mpr ⟨rfl, ?_⟩
    cases old <;> decide
  have solid : ∀ c ∈ code, (c ≠ ' ' : Bool) = true := by
    intro c mem
    refine decide_eq_true fun same => ?_
    subst same
    exact absurd (digits.2 ' ' mem) (by decide)
  have stops : ∀ c, reason.head? = some c → (c ≠ ' ' : Bool) = false := by
    intro c first
    obtain rfl | blank := apart
    · contradiction
    · obtain rfl := Option.some.inj (blank.symm.trans first)
      rfl
  have read : Decimal.read? 1000 code = some status.toNat :=
    Decimal.read?_eq_some_iff.mpr ⟨digits, value, proper.2⟩
  have large : ¬ status.toNat < 100 := Nat.not_lt.mpr proper.1
  unfold statusLine?
  rw [split]
  simp only [Option.bind_eq_bind, Option.bind_some, takeWhile_stops solid stops,
    dropWhile_stops solid stops, three, legal, and_self, if_true, read, large, if_false]
  cases old <;> simp

theorem statusLine_of_read {old : Bool} {status : UInt16} {line : List Char}
    (read : statusLine? line = some (old, status)) : StatusLine old status line := by
  obtain ⟨⟨version, rest⟩, cut, found⟩ := Option.bind_eq_some_iff.mp read
  obtain ⟨rfl, -⟩ := Text.splitFirst?_eq_some_iff.mp cut
  dsimp only at found
  have rejoined := List.takeWhile_append_dropWhile (p := (· ≠ ' ')) (l := rest)
  split at found
  · next proper =>
    obtain ⟨number, value, found⟩ := Option.bind_eq_some_iff.mp found
    obtain ⟨digits, same, small⟩ := Decimal.read?_eq_some_iff.mp value
    have apart : rest.dropWhile (· ≠ ' ') = [] ∨ (rest.dropWhile (· ≠ ' ')).head? = some ' ' := by
      cases first : (rest.dropWhile (· ≠ ' ')).head? with
      | none => exact .inl (List.head?_eq_none_iff.mp first)
      | some c =>
        obtain rfl : c = ' ' := by simpa using head_of_dropWhile first
        exact .inr rfl
    have fits : (UInt16.ofNat number).toNat = number :=
      UInt16.toNat_ofNat_of_lt' (Nat.lt_trans small (by decide))
    have line {old : Bool} (large : ¬ number < 100) :
        StatusLine old (.ofNat number)
          ((if old then "HTTP/1.0" else "HTTP/1.1").toList ++ ' ' :: rest) := by
      rw [← rejoined]
      exact .line digits proper.1 (same.trans fits.symm) (by omega) apart proper.2
    split at found
    · contradiction
    · next large =>
      split at found
      · next version =>
        obtain ⟨rfl, rfl⟩ := Prod.mk.inj (Option.some.inj found)
        subst version
        exact line large
      · split at found
        · next version =>
          obtain ⟨rfl, rfl⟩ := Prod.mk.inj (Option.some.inj found)
          subst version
          exact line large
        · contradiction
  · contradiction

theorem isHeaderValue_append {text rest : List Char} (legal : isHeaderValue (String.ofList text) = true)
    (legal' : isHeaderValue (String.ofList rest) = true) :
    isHeaderValue (String.ofList (text ++ rest)) = true := by
  simp only [isHeaderValue, String.toList_ofList, List.all_append, Bool.and_eq_true] at *
  exact ⟨legal, legal'⟩

theorem isHeaderValue_blank {text : List Char} (blank : ∀ c ∈ text, isSpace c = true) :
    isHeaderValue (String.ofList text) = true := by
  rw [isHeaderValue, String.toList_ofList, List.all_eq_true]
  intro c mem
  have space := blank c mem
  simp only [isSpace, Bool.or_eq_true, beq_iff_eq] at space
  obtain rfl | rfl := space <;> decide

theorem field?_line {field : String × List Char} {line : List Char}
    (written : FieldLine field line) : field? line = some field := by
  obtain ⟨token, legal, solid, blank⟩ := written
  rename_i name before value after
  have split : Text.splitFirst? ':' (name ++ ':' :: (before ++ value ++ after)) =
      some (name, before ++ value ++ after) := by
    refine Text.splitFirst?_eq_some_iff.mpr ⟨rfl, fun mem => ?_⟩
    simp only [isHeaderName, String.toList_ofList, Bool.and_eq_true, List.all_eq_true] at token
    exact absurd (token.2 ':' mem) (by decide)
  have proper : isHeaderValue (String.ofList (before ++ value ++ after)) = true := by
    refine isHeaderValue_append (isHeaderValue_append ?_ legal) ?_
    · exact isHeaderValue_blank fun c mem => blank c (List.mem_append_left _ mem)
    · exact isHeaderValue_blank fun c mem => blank c (List.mem_append_right _ mem)
  unfold field?
  rw [split]
  simp only [Option.bind_eq_bind, Option.bind_some, token, proper, and_self, if_true,
    trimmed_solid solid blank]

theorem fieldLine_of_read {field : String × List Char} {line : List Char}
    (read : field? line = some field) : FieldLine field line := by
  obtain ⟨⟨name, value⟩, cut, found⟩ := Option.bind_eq_some_iff.mp read
  obtain ⟨rfl, -⟩ := Text.splitFirst?_eq_some_iff.mp cut
  dsimp only at found
  split at found
  · next proper =>
    obtain rfl := Option.some.inj found
    obtain ⟨before, after, same, solid, blank⟩ := Text.exists_margins isSpace value
    have legal : isHeaderValue (String.ofList (Text.trimmed isSpace value)) = true := by
      have legal := proper.2
      simp only [isHeaderValue, String.toList_ofList, List.all_eq_true] at legal ⊢
      intro c mem
      refine legal c ?_
      rw [same]
      exact List.mem_append_left _ (List.mem_append_right _ mem)
    have written := FieldLine.line proper.1 legal solid blank
    rwa [← same] at written
  · contradiction

theorem Head.read?_written {head : Head} {lines : List (List UInt8)} (written : head.Written lines) :
    Head.read? (lines.map latin) = some head := by
  obtain ⟨status, fields⟩ := written
  rename_i first others
  have read : (others.map latin).mapM field? = some head.fields := by
    generalize head.fields = listed at fields
    induction fields with
    | nil => rfl
    | cons field _ ih => simp [List.mapM_cons, field?_line field, ih]
  simp [Head.read?, statusLine?_line status, read]

theorem fieldLines_of_read {fields : List (String × List Char)} {lines : List (List UInt8)}
    (read : (lines.map latin).mapM field? = some fields) :
    List.Forall₂ (fun field line => FieldLine field (latin line)) fields lines := by
  induction lines generalizing fields with
  | nil =>
    obtain rfl := Option.some.inj read
    exact .nil
  | cons line lines ih =>
    simp only [List.map_cons, List.mapM_cons, Option.bind_eq_bind, Option.bind_eq_some_iff,
      Option.pure_def, Option.some.injEq] at read
    obtain ⟨field, one, fields, more, rfl⟩ := read
    exact .cons (fieldLine_of_read one) (ih more)

theorem Head.written_of_read {head : Head} {lines : List (List UInt8)}
    (read : Head.read? (lines.map latin) = some head) : head.Written lines := by
  cases lines with
  | nil => contradiction
  | cons first others =>
    obtain ⟨⟨old, status⟩, line, read⟩ := Option.bind_eq_some_iff.mp read
    obtain ⟨fields, listed, read⟩ := Option.bind_eq_some_iff.mp read
    obtain rfl := Option.some.inj read
    exact .lines (statusLine_of_read line) (fieldLines_of_read listed)

end Lines

section Heads

variable {method : String}

theorem readHead_append {bytes : List UInt8} (feedless : 0x0A ∉ bytes) (lines : List (List Char))
    (line more : List UInt8) :
    readHead method lines line (bytes ++ more) = readHead method lines (line ++ bytes) more := by
  induction bytes generalizing line with
  | nil => rw [List.append_nil, List.nil_append]
  | cons b bytes ih =>
    rw [List.mem_cons, not_or] at feedless
    rw [List.cons_append, readHead, if_pos (Ne.symm feedless.1), ih feedless.2, List.append_assoc,
      List.singleton_append]

theorem chopped_returned (line : List UInt8) : chopped (line ++ [0x0D]) = line := by
  rw [chopped, List.getLast?_concat, if_pos rfl, List.dropLast_concat]

theorem readHead_feed {line line' : List UInt8} (same : chopped line = chopped line')
    (lines : List (List Char)) (more : List UInt8) :
    readHead method lines line (0x0A :: more) = readHead method lines line' (0x0A :: more) := by
  simp only [readHead, same, ne_eq, not_true_eq_false, if_false]

/-- However a line ends, what is read is the line. -/
theorem readHead_stop {line stop : List UInt8} (ends : Ends line stop) (lines : List (List Char))
    (more : List UInt8) :
    readHead method lines line (stop ++ more) =
      readHead method lines (line ++ [0x0D]) (0x0A :: more) := by
  obtain rfl | ⟨rfl, unreturned⟩ := ends
  · change readHead method lines line (0x0D :: 0x0A :: more) = _
    rw [readHead, if_pos (by decide)]
  · have same : chopped line = line := if_neg unreturned
    exact readHead_feed (same.trans (chopped_returned line).symm) lines more

theorem readHead_line {line stop : List UInt8} (nonempty : line ≠ []) (feedless : 0x0A ∉ line)
    (ends : Ends line stop) (lines : List (List Char)) (more : List UInt8) :
    readHead method lines [] (line ++ stop ++ more) =
      readHead method (lines ++ [latin line]) [] more := by
  rw [List.append_assoc, readHead_append feedless, List.nil_append, readHead_stop ends, readHead,
    if_neg (fun other => other rfl), chopped_returned, if_pos nonempty]

theorem readHead_lines {rest : List (List UInt8)} {bytes : List UInt8} (text : Lines rest bytes)
    (lines : List (List Char)) (more : List UInt8) :
    readHead method lines [] (bytes ++ more) =
      readHead method (lines ++ rest.map latin) [0x0D] (0x0A :: more) := by
  induction text generalizing lines with
  | nil ends =>
    rw [List.map_nil, List.append_nil]
    exact readHead_stop ends lines more
  | cons nonempty feedless ends _ ih =>
    rw [List.append_assoc, readHead_line nonempty feedless ends, ih, List.map_cons,
      List.append_assoc, List.singleton_append]

theorem readHead_written {head : Head} {lines : List (List UInt8)} {bytes : List UInt8}
    (written : head.Written lines) (text : Lines lines bytes) (more : List UInt8) :
    readHead method [] [] (bytes ++ more) =
      if head.Interim then readHead method [] [] more
      else (head.framing? method).elim .malformed fun framing => .done (head.status, framing) more := by
  have some_line : lines.map latin ≠ [] := by
    cases written
    exact List.cons_ne_nil _ _
  rw [readHead_lines text, List.nil_append, readHead, if_neg (fun other => other rfl),
    if_neg (fun other => other rfl), if_neg some_line, Head.read?_written written]
  dsimp only
  cases head.framing? method <;> rfl

theorem readHead_heads {status : UInt16} {framing : Framing} {bytes : List UInt8}
    (heads : Heads method status framing bytes) (more : List UInt8) :
    readHead method [] [] (bytes ++ more) = .done (status, framing) more := by
  induction heads with
  | blank ends _ ih =>
    rw [List.append_assoc, readHead_stop ends, readHead]
    exact ih
  | interim written text interim _ ih =>
    rw [List.append_assoc, readHead_written written text, if_pos interim, ih]
  | final written text final framed =>
    rw [readHead_written written text, if_neg final, framed]
    rfl

theorem exists_stop (line : List UInt8) :
    ∃ stop, line ++ [0x0A] = chopped line ++ stop ∧ Ends (chopped line) stop := by
  unfold chopped
  split
  · next returned =>
    refine ⟨crlf, ?_, .inl rfl⟩
    have rejoined := List.dropLast_append_getLast? _ returned
    rw [← rejoined]
    simp [crlf]
  · next unreturned => exact ⟨[0x0A], rfl, .inr ⟨rfl, unreturned⟩⟩

/-- The lines of a head so far, the bytes that they were read off, and those of the next line so far. -/
structure Begun (lines : List (List UInt8)) (past line : List UInt8) : Prop where
  grows : ∀ others text, Lines others text → Lines (lines ++ others) (past ++ text)
  fresh : lines = [] → past = []
  feedless : 0x0A ∉ line

namespace Begun

variable {lines : List (List UInt8)} {past line : List UInt8}

theorem start : Begun [] [] [] := ⟨fun _ _ => id, fun _ => rfl, List.not_mem_nil⟩

theorem byte (begun : Begun lines past line) {b : UInt8} (other : b ≠ 0x0A) :
    Begun lines past (line ++ [b]) := by
  refine ⟨begun.grows, begun.fresh, ?_⟩
  rw [List.mem_append, List.mem_singleton, not_or]
  exact ⟨begun.feedless, other.symm⟩

theorem next (begun : Begun lines past line) (nonempty : chopped line ≠ []) :
    Begun (lines ++ [chopped line]) (past ++ line ++ [0x0A]) [] := by
  refine ⟨fun others text listed => ?_, fun none => absurd none (by simp), List.not_mem_nil⟩
  obtain ⟨stop, same, ends⟩ := exists_stop line
  have feedless : 0x0A ∉ chopped line := by
    unfold chopped
    split
    · exact fun mem => begun.feedless ((List.dropLast_sublist line).subset mem)
    · exact begun.feedless
  have grown := begun.grows _ _ (Lines.cons nonempty feedless ends listed)
  rw [← same] at grown
  simpa only [List.append_assoc, List.singleton_append] using grown

theorem last (begun : Begun lines past line) (empty : chopped line = []) :
    Lines lines (past ++ line ++ [0x0A]) := by
  obtain ⟨stop, same, ends⟩ := exists_stop line
  rw [empty] at same ends
  have grown := begun.grows [] stop (.nil ends)
  rwa [List.append_nil, ← List.nil_append stop, ← same, ← List.append_assoc] at grown

theorem blank (begun : Begun [] past line) (empty : chopped line = []) :
    Ends [] (past ++ line ++ [0x0A]) := by
  obtain ⟨stop, same, ends⟩ := exists_stop line
  rw [empty] at same ends
  rwa [begun.fresh rfl, List.nil_append, same]

end Begun

theorem heads_of_readHead {status : UInt16} {framing : Framing} {rest : List UInt8}
    {lines : List (List UInt8)} {past line bytes : List UInt8} (begun : Begun lines past line)
    (read : readHead method (lines.map latin) line bytes = .done (status, framing) rest) :
    ∃ more, bytes = more ++ rest ∧ Heads method status framing (past ++ line ++ more) := by
  induction bytes generalizing lines past line with
  | nil => contradiction
  | cons b bytes ih =>
    -- In every case the byte goes to the text of the heads, and the rest is read from there.
    suffices ∃ more, bytes = more ++ rest ∧
        Heads method status framing (past ++ line ++ [b] ++ more) by
      obtain ⟨more, rfl, heads⟩ := this
      exact ⟨b :: more, rfl, by rwa [List.append_cons]⟩
    rw [readHead] at read
    split at read
    · next other =>
      obtain ⟨more, rfl, heads⟩ := ih (begun.byte other) read
      exact ⟨more, rfl, by rwa [← List.append_assoc] at heads⟩
    next feed =>
    obtain rfl := Decidable.not_not.mp feed
    split at read
    · next nonempty =>
      rw [← List.map_singleton, ← List.map_append] at read
      obtain ⟨more, rfl, heads⟩ := ih (begun.next nonempty) read
      exact ⟨more, rfl, by rwa [List.append_nil] at heads⟩
    next empty =>
    replace empty := Decidable.not_not.mp empty
    split at read
    · next none =>
      obtain rfl := List.map_eq_nil_iff.mp none
      obtain ⟨more, rfl, heads⟩ := ih .start read
      exact ⟨more, rfl, .blank (begun.blank empty) heads⟩
    split at read
    · contradiction
    next head found =>
    have written := Head.written_of_read found
    split at read
    · next interim =>
      obtain ⟨more, rfl, heads⟩ := ih .start read
      exact ⟨more, rfl, .interim written (begun.last empty) interim heads⟩
    next final =>
    split at read
    · contradiction
    next framed =>
    obtain ⟨same, rfl⟩ := Reading.done.inj read
    obtain ⟨rfl, rfl⟩ := Prod.mk.inj same
    refine ⟨[], rfl, ?_⟩
    rw [List.append_nil]
    exact .final written (begun.last empty) final framed

/-- The heads are read just if they have come, and what follows them is left. -/
theorem readHead_done_iff {status : UInt16} {framing : Framing} {bytes rest : List UInt8} :
    readHead method [] [] bytes = .done (status, framing) rest ↔
      ∃ heads, bytes = heads ++ rest ∧ Heads method status framing heads := by
  constructor
  · exact heads_of_readHead .start
  · rintro ⟨heads, rfl, written⟩
    exact readHead_heads written rest

end Heads

end MatrixSession.Http
