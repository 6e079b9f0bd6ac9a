import MatrixSession.Proofs.Http.Heads

/-!
Reading bodies. A body that is framed is read off the bytes it is written with, neither earlier nor
later.
-/
namespace MatrixSession.Http

open Text (takeWhile_stops dropWhile_stops)

section Chunks

variable {body more : List UInt8}

theorem chunkSize?_line {size : Nat} {line : List Char} (written : SizeLine size line) :
    chunkSize? line = some size := by
  obtain ⟨nonempty, hex, small, blank, apart, feedless⟩ := written
  rename_i digits blanks extension
  have unspaced : ∀ c, extension.head? = some c → isSpace c = false := by
    intro c first
    obtain rfl | semicolon := apart
    · contradiction
    · obtain rfl := Option.some.inj (semicolon.symm.trans first)
      rfl
  have unhex : ∀ c, (blanks ++ extension).head? = some c → isHexDigit c = false := by
    intro c first
    cases blanks with
    | nil =>
      obtain rfl | semicolon := apart
      · exact nomatch first
      · obtain rfl := Option.some.inj (semicolon.symm.trans first)
        rfl
    | cons space blanks =>
      obtain rfl : space = c := Option.some.inj first
      have spaced := blank space List.mem_cons_self
      simp only [isSpace, Bool.or_eq_true, beq_iff_eq] at spaced
      obtain rfl | rfl := spaced <;> rfl
  unfold chunkSize?
  simp only [List.append_assoc, takeWhile_stops hex unhex, dropWhile_stops hex unhex,
    dropWhile_stops blank unspaced]
  refine if_pos ⟨nonempty, small, ?_⟩
  exact apart.imp_right fun semicolon => ⟨semicolon, feedless⟩

theorem sizeLine_of_read {size : Nat} {line : List Char} (read : chunkSize? line = some size) :
    SizeLine size line := by
  have digits := List.takeWhile_append_dropWhile (p := isHexDigit) (l := line)
  have blanks := List.takeWhile_append_dropWhile (p := isSpace) (l := line.dropWhile isHexDigit)
  unfold chunkSize? at read
  dsimp only at read
  split at read
  · next proper =>
    obtain rfl := Option.some.inj read
    obtain ⟨nonempty, small, apart⟩ := proper
    have feedless : '\n' ∉ (line.dropWhile isHexDigit).dropWhile isSpace := by
      obtain none | ⟨-, feedless⟩ := apart
      · rw [none]
        exact List.not_mem_nil
      · exact feedless
    have blank : ∀ c ∈ (line.dropWhile isHexDigit).takeWhile isSpace, isSpace c = true :=
      fun c => List.mem_takeWhile_imp
    have written := SizeLine.line nonempty (fun c => List.mem_takeWhile_imp) small blank
      (apart.imp_right And.left) feedless
    rwa [List.append_assoc, blanks, digits] at written
  · contradiction

theorem readChunks_size {bytes : List UInt8} (unreturned : 0x0D ∉ bytes) (line : List UInt8) :
    readChunks (.size line) body (bytes ++ more) = readChunks (.size (line ++ bytes)) body more := by
  induction bytes generalizing line with
  | nil => rw [List.append_nil, List.nil_append]
  | cons b bytes ih =>
    rw [List.mem_cons, not_or] at unreturned
    rw [List.cons_append, readChunks, if_neg (Ne.symm unreturned.1), ih unreturned.2,
      List.append_assoc, List.singleton_append]

section SizeLines

variable {line : List UInt8} (unreturned : 0x0D ∉ line)
include unreturned

theorem readChunks_last_line (written : SizeLine 0 (latin line)) :
    readChunks (.size []) body (line ++ crlf ++ more) = readChunks (.trailer true) body more := by
  rw [List.append_assoc, readChunks_size unreturned, List.nil_append]
  change readChunks (.size line) body (0x0D :: 0x0A :: more) = _
  rw [readChunks, if_pos rfl, readChunks, if_neg (fun other => other rfl), chunkSize?_line written]

theorem readChunks_line {left : Nat} (written : SizeLine (left + 1) (latin line)) :
    readChunks (.size []) body (line ++ crlf ++ more) = readChunks (.data left) body more := by
  rw [List.append_assoc, readChunks_size unreturned, List.nil_append]
  change readChunks (.size line) body (0x0D :: 0x0A :: more) = _
  rw [readChunks, if_pos rfl, readChunks, if_neg (fun other => other rfl), chunkSize?_line written]

end SizeLines

theorem readChunks_data {data : List UInt8} {left : Nat} (size : data.length = left + 1) :
    readChunks (.data left) body (data ++ crlf ++ more) =
      readChunks (.size []) (data.reverse ++ body) more := by
  induction data generalizing left body with
  | nil => contradiction
  | cons b data ih =>
    cases left with
    | zero =>
      obtain rfl := List.eq_nil_of_length_eq_zero (Nat.succ.inj size)
      rfl
    | succ left =>
      rw [List.cons_append, List.cons_append, readChunks, ih (Nat.succ.inj size),
        List.reverse_cons, List.append_assoc, List.singleton_append]

theorem readChunks_trailer {bytes : List UInt8} (nonempty : bytes ≠ []) (unreturned : 0x0D ∉ bytes)
    (blank : Bool) :
    readChunks (.trailer blank) body (bytes ++ more) = readChunks (.trailer false) body more := by
  induction bytes generalizing blank with
  | nil => exact absurd rfl nonempty
  | cons b bytes ih =>
    rw [List.mem_cons, not_or] at unreturned
    rw [List.cons_append, readChunks, if_neg (Ne.symm unreturned.1)]
    by_cases last : bytes = []
    · subst last
      rfl
    · exact ih last unreturned.2 false

theorem readChunks_trailers {bytes : List UInt8} (trailers : Trailers bytes) :
    readChunks (.trailer true) body (bytes ++ more) = .done body.reverse more := by
  induction trailers with
  | nil => rfl
  | cons nonempty unreturned _ ih =>
    rw [List.append_assoc, List.append_assoc, readChunks_trailer nonempty unreturned]
    exact ih

theorem readChunks_chunks {bytes new : List UInt8} (chunks : Chunks bytes new) :
    readChunks (.size []) body (bytes ++ more) = .done (body.reverse ++ new) more := by
  induction chunks generalizing body with
  | last size unreturned trailers =>
    rw [List.append_assoc, readChunks_last_line unreturned size, List.append_nil]
    exact readChunks_trailers trailers
  | @chunk line data bytes new nonempty size unreturned _ ih =>
    obtain ⟨b, tail, rfl⟩ := List.exists_cons_of_ne_nil nonempty
    have whole : line ++ crlf ++ (b :: tail) ++ crlf ++ bytes ++ more =
        line ++ crlf ++ ((b :: tail) ++ crlf ++ (bytes ++ more)) := by
      simp only [List.append_assoc]
    rw [whole, readChunks_line unreturned size, readChunks_data rfl, ih, List.reverse_append,
      List.reverse_reverse, List.append_assoc]

/-- What is still to come of a body in chunks, and what it adds to the body. -/
def ChunkPoint.Awaits : ChunkPoint → List UInt8 → List UInt8 → Prop
  | size line, bytes, new => 0x0D ∉ line → Chunks (line ++ bytes) new
  | sizeFeed line, bytes, new => 0x0D ∉ line → Chunks (line ++ 0x0D :: bytes) new
  | data left, bytes, new => ∃ data more new', data.length = left + 1 ∧
      bytes = data ++ crlf ++ more ∧ new = data ++ new' ∧ Chunks more new'
  | dataReturn, bytes, new => ∃ more, bytes = crlf ++ more ∧ Chunks more new
  | dataFeed, bytes, new => ∃ more, bytes = 0x0A :: more ∧ Chunks more new
  | trailer blank, bytes, new => new = [] ∧
      (blank = true ∧ Trailers bytes ∨
        ∃ line more, bytes = line ++ crlf ++ more ∧ 0x0D ∉ line ∧ blank = false ∧ Trailers more)
  | trailerFeed blank, bytes, new => new = [] ∧
      (blank = true ∧ bytes = [0x0A] ∨ blank = false ∧ ∃ more, bytes = 0x0A :: more ∧ Trailers more)

inductive ChunkPoint.Moves : ChunkPoint → UInt8 → ChunkPoint → List UInt8 → Prop
  | size {b : UInt8} (line : List UInt8) (other : b ≠ 0x0D) :
      Moves (.size line) b (.size (line ++ [b])) []
  | sizeEnd (line : List UInt8) : Moves (.size line) 0x0D (.sizeFeed line) []
  | last {line : List UInt8} (size : SizeLine 0 (latin line)) :
      Moves (.sizeFeed line) 0x0A (.trailer true) []
  | chunk {line : List UInt8} {left : Nat} (size : SizeLine (left + 1) (latin line)) :
      Moves (.sizeFeed line) 0x0A (.data left) []
  | data (left : Nat) (b : UInt8) : Moves (.data (left + 1)) b (.data left) [b]
  | dataEnd (b : UInt8) : Moves (.data 0) b .dataReturn [b]
  | dataReturn : Moves .dataReturn 0x0D .dataFeed []
  | dataFeed : Moves .dataFeed 0x0A (.size []) []
  | trailer {b : UInt8} (blank : Bool) (other : b ≠ 0x0D) : Moves (.trailer blank) b (.trailer false) []
  | trailerEnd (blank : Bool) : Moves (.trailer blank) 0x0D (.trailerFeed blank) []
  | nextTrailer : Moves (.trailerFeed false) 0x0A (.trailer true) []

section Moves

variable {point next : ChunkPoint} {b : UInt8} {bytes whole rest new new' : List UInt8}

theorem moves_of_readChunks (read : readChunks point body (b :: bytes) = .done whole rest) :
    (point = .trailerFeed true ∧ b = 0x0A ∧ whole = body.reverse ∧ rest = bytes) ∨
      ∃ next new, point.Moves b next new ∧
        readChunks next (new.reverse ++ body) bytes = .done whole rest := by
  cases point with
  | size line =>
    rw [readChunks] at read
    split at read
    · next same =>
      subst same
      exact .inr ⟨_, _, .sizeEnd line, read⟩
    · next other => exact .inr ⟨_, _, .size line other, read⟩
  | sizeFeed line =>
    rw [readChunks] at read
    split at read
    · contradiction
    next feed =>
    obtain rfl := Decidable.not_not.mp feed
    split at read
    · contradiction
    · next size => exact .inr ⟨_, _, .last (sizeLine_of_read size), read⟩
    · next left size => exact .inr ⟨_, _, .chunk (sizeLine_of_read size), read⟩
  | data left =>
    cases left with
    | zero => exact .inr ⟨_, _, .dataEnd b, read⟩
    | succ left => exact .inr ⟨_, _, .data left b, read⟩
  | dataReturn =>
    rw [readChunks] at read
    split at read
    · next same =>
      subst same
      exact .inr ⟨_, _, .dataReturn, read⟩
    · contradiction
  | dataFeed =>
    rw [readChunks] at read
    split at read
    · next same =>
      subst same
      exact .inr ⟨_, _, .dataFeed, read⟩
    · contradiction
  | trailer blank =>
    rw [readChunks] at read
    split at read
    · next same =>
      subst same
      exact .inr ⟨_, _, .trailerEnd blank, read⟩
    · next other => exact .inr ⟨_, _, .trailer blank other, read⟩
  | trailerFeed blank =>
    rw [readChunks] at read
    split at read
    · contradiction
    next feed =>
    obtain rfl := Decidable.not_not.mp feed
    cases blank with
    | true =>
      obtain ⟨rfl, rfl⟩ := Reading.done.inj read
      exact .inl ⟨rfl, rfl, rfl, rfl⟩
    | false => exact .inr ⟨_, _, .nextTrailer, read⟩

theorem ChunkPoint.Moves.awaits (moves : point.Moves b next new) (awaited : next.Awaits more new') :
    point.Awaits (b :: more) (new ++ new') := by
  cases moves with
  | size line other =>
    intro unreturned
    rw [List.append_cons]
    refine awaited ?_
    rw [List.mem_append, List.mem_singleton, not_or]
    exact ⟨unreturned, Ne.symm other⟩
  | sizeEnd line => exact awaited
  | last size =>
    obtain ⟨rfl, ⟨-, trailers⟩ | ⟨_, _, _, _, no, _⟩⟩ := awaited
    · intro unreturned
      have chunks := Chunks.last size unreturned trailers
      rwa [List.append_assoc] at chunks
    · contradiction
  | chunk size =>
    obtain ⟨data, more, new', length, rfl, rfl, chunks⟩ := awaited
    intro unreturned
    have nonempty : data ≠ [] := List.ne_nil_of_length_eq_add_one length
    rw [← length] at size
    have chunks := Chunks.chunk nonempty size unreturned chunks
    simpa [crlf] using chunks
  | data left b =>
    obtain ⟨data, more, new', length, rfl, rfl, chunks⟩ := awaited
    exact ⟨b :: data, more, new', congrArg (· + 1) length, rfl, rfl, chunks⟩
  | dataEnd b =>
    obtain ⟨more, rfl, chunks⟩ := awaited
    exact ⟨[b], more, new', rfl, rfl, rfl, chunks⟩
  | dataReturn =>
    obtain ⟨more, rfl, chunks⟩ := awaited
    exact ⟨more, rfl, chunks⟩
  | dataFeed => exact ⟨more, rfl, awaited List.not_mem_nil⟩
  | trailer blank other =>
    obtain ⟨rfl, ⟨no, -⟩ | ⟨line, more, rfl, unreturned, -, trailers⟩⟩ := awaited
    · contradiction
    · have unreturned' : 0x0D ∉ b :: line := by
        rw [List.mem_cons, not_or]
        exact ⟨Ne.symm other, unreturned⟩
      refine ⟨rfl, ?_⟩
      cases blank with
      | true => exact .inl ⟨rfl, .cons (List.cons_ne_nil b line) unreturned' trailers⟩
      | false => exact .inr ⟨b :: line, more, rfl, unreturned', rfl, trailers⟩
  | trailerEnd blank =>
    obtain ⟨rfl, ⟨rfl, rfl⟩ | ⟨rfl, more, rfl, trailers⟩⟩ := awaited
    · exact ⟨rfl, .inl ⟨rfl, .nil⟩⟩
    · exact ⟨rfl, .inr ⟨[], more, rfl, List.not_mem_nil, rfl, trailers⟩⟩
  | nextTrailer =>
    obtain ⟨rfl, ⟨-, trailers⟩ | ⟨_, _, _, _, no, _⟩⟩ := awaited
    · exact ⟨rfl, .inr ⟨rfl, more, rfl, trailers⟩⟩
    · contradiction

/-- What was read up to the end of a body was awaited. -/
theorem awaits_of_readChunks (read : readChunks point body bytes = .done whole rest) :
    ∃ more new, bytes = more ++ rest ∧ whole = body.reverse ++ new ∧ point.Awaits more new := by
  induction bytes generalizing point body with
  | nil => cases point <;> contradiction
  | cons b bytes ih =>
    obtain ⟨rfl, rfl, rfl, rfl⟩ | ⟨next, new, moves, read⟩ := moves_of_readChunks read
    · exact ⟨[0x0A], [], rfl, (List.append_nil _).symm, rfl, .inl ⟨rfl, rfl⟩⟩
    · obtain ⟨more, new', rfl, rfl, awaited⟩ := ih read
      refine ⟨b :: more, new ++ new', rfl, ?_, moves.awaits awaited⟩
      rw [List.reverse_append, List.reverse_reverse, List.append_assoc]

end Moves

end Chunks

/-- A framed body is read just if it has come, and what follows it is left. -/
theorem read_done_iff {framing : Framing} {bytes body rest : List UInt8} :
    framing.read bytes = .done body rest ↔
      framing ≠ .untilClose ∧ ∃ text, bytes = text ++ rest ∧ framing.Carries text body := by
  constructor
  · intro read
    cases framing with
    | empty =>
      obtain ⟨rfl, rfl⟩ := Reading.done.inj read
      exact ⟨nofun, [], rfl, .empty⟩
    | counted size =>
      by_cases short : bytes.length < size
      · exact nomatch (if_pos short).symm.trans read
      · obtain ⟨rfl, rfl⟩ := Reading.done.inj ((if_neg short).symm.trans read)
        refine ⟨nofun, bytes.take size, (List.take_append_drop size bytes).symm, ?_⟩
        have counted := Framing.Carries.counted (bytes.take size)
        rwa [List.length_take_of_le (Nat.le_of_not_lt short)] at counted
    | chunked =>
      obtain ⟨text, body, rfl, rfl, chunks⟩ := awaits_of_readChunks read
      exact ⟨nofun, text, rfl, .chunked (chunks List.not_mem_nil)⟩
    | untilClose => contradiction
  · rintro ⟨framed, text, rfl, carries⟩
    cases carries with
    | empty => rfl
    | counted =>
      have enough : ¬ (body ++ rest).length < body.length := by
        rw [List.length_append]
        omega
      refine (if_neg enough).trans ?_
      rw [List.take_left, List.drop_left]
    | chunked chunks => exact readChunks_chunks chunks
    | untilClose => exact absurd rfl framed

end MatrixSession.Http
