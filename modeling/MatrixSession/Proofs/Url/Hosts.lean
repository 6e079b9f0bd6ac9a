import MatrixSession.Proofs.Url.Segments
import MatrixSession.Url.Parser

/-!
What a URL that was read has for its host and its port. A domain is not empty and holds no character
that ends a host, brackets stand around IPv6 addresses only, and a port is never the default one of
the scheme.
-/
namespace MatrixSession

theorem mapM_some {α β : Type} {f : α → Option β} {list : List α} {results : List β}
    (mapped : list.mapM f = some results) : ∀ x ∈ list, ∃ y, f x = some y := by
  induction list generalizing results with
  | nil => simp
  | cons x list ih =>
    simp only [List.mapM_cons, Option.bind_eq_bind, Option.bind_eq_some_iff] at mapped
    obtain ⟨y, found, more, rest, -⟩ := mapped
    exact List.forall_mem_cons.mpr ⟨⟨y, found⟩, ih rest⟩

namespace Ipv6

def isAddressChar (c : Char) : Bool := (Hex.value? c.toNat).isSome || c == ':' || c == '.'

theorem isAddressChar_of_digit {c : Char} (digit : c.isDigit = true) : isAddressChar c = true := by
  have low : 0x30 ≤ c.toNat := (Char.isDigit_iff_toNat.mp digit).1
  have high : c.toNat ≤ 0x39 := (Char.isDigit_iff_toNat.mp digit).2
  simp [isAddressChar, Hex.value?, low, high]

theorem chars_of_piece {text : List Char} {piece : UInt16} (read : piece? text = some piece) :
    ∀ c ∈ text, isAddressChar c = true := by
  unfold piece? at read
  split at read
  · contradiction
  · obtain ⟨values, digits, -⟩ := Option.map_eq_some_iff.mp read
    intro c mem
    obtain ⟨value, found⟩ := mapM_some digits c mem
    simp [isAddressChar, found]

theorem chars_of_ipv4 {text : List Char} {numbers : Nat × Nat × Nat × Nat}
    (read : Ipv4.parseStrict? text = some numbers) : ∀ c ∈ text, isAddressChar c = true := by
  simp only [Ipv4.parseStrict?, Option.bind_eq_bind, Option.bind_eq_some_iff] at read
  obtain ⟨list, parts, -⟩ := read
  intro c mem
  obtain point | ⟨part, inside, mem⟩ := Text.mem_splitAll (· = '.') mem
  · simp [isAddressChar, of_decide_eq_true point]
  · obtain ⟨n, found⟩ := mapM_some parts part inside
    obtain ⟨-, -, read⟩ := Option.bind_eq_some_iff.mp found
    exact isAddressChar_of_digit ((Decimal.read?_eq_some_iff.mp read).1.2 c mem)

theorem chars_of_pieces {withIpv4 : Bool} {parts : List (List Char)} {pieces : List UInt16}
    (read : pieces? withIpv4 parts = some pieces) :
    ∀ part ∈ parts, ∀ c ∈ part, isAddressChar c = true := by
  induction parts using pieces?.induct generalizing pieces with
  | case1 => simp
  | case2 last piece found =>
    exact List.forall_mem_singleton.mpr (chars_of_piece found)
  | case3 last none =>
    simp only [pieces?, none, Option.bind_eq_bind, Option.bind_eq_some_iff] at read
    obtain ⟨-, -, numbers, found, -⟩ := read
    exact List.forall_mem_singleton.mpr (chars_of_ipv4 found)
  | case4 first rest more ih =>
    rw [pieces?] at read
    · simp only [Option.bind_eq_bind, Option.bind_eq_some_iff] at read
      obtain ⟨piece, found, pieces, rest, -⟩ := read
      exact List.forall_mem_cons.mpr ⟨chars_of_piece found, ih rest⟩
    · exact more

theorem splitDoubleColon_eq {text left right : List Char}
    (cut : splitDoubleColon? text = some (left, right)) : text = left ++ ':' :: ':' :: right := by
  induction text using splitDoubleColon?.induct generalizing left with
  | case1 rest =>
    obtain ⟨rfl, rfl⟩ := Prod.mk.inj (Option.some.inj cut)
    rfl
  | case2 c rest other ih =>
    rw [splitDoubleColon?] at cut
    · obtain ⟨⟨front, back⟩, found, same⟩ := Option.map_eq_some_iff.mp cut
      obtain ⟨rfl, rfl⟩ := Prod.mk.inj same
      rw [ih found]
      rfl
    · exact other
  | case3 => contradiction

theorem chars_of_parse {text : List Char} {pieces : List UInt16} (read : parse? text = some pieces) :
    ∀ c ∈ text, isAddressChar c = true := by
  have split (text : List Char) {withIpv4 : Bool} {pieces : List UInt16}
      (read : pieces? withIpv4 (Text.splitAll (· = ':') text) = some pieces) :
      ∀ c ∈ text, isAddressChar c = true := by
    intro c mem
    obtain colon | ⟨part, inside, mem⟩ := Text.mem_splitAll (· = ':') mem
    · simp [isAddressChar, of_decide_eq_true colon]
    · exact chars_of_pieces read part inside c mem
  have side (text : List Char) {withIpv4 : Bool} {pieces : List UInt16}
      (read : pieces? withIpv4 (colonParts text) = some pieces) :
      ∀ c ∈ text, isAddressChar c = true := by
    unfold colonParts at read
    split at read
    · simp_all
    · exact split text read
  unfold parse? at read
  split at read
  · simp only [Option.bind_eq_bind, Option.bind_eq_some_iff] at read
    obtain ⟨pieces, found, -⟩ := read
    exact split text found
  · rename_i left right cut
    simp only [Option.bind_eq_bind, Option.bind_eq_some_iff] at read
    obtain ⟨_, front, _, back, -⟩ := read
    rw [splitDoubleColon_eq cut]
    refine List.forall_mem_append.mpr ⟨side left front, ?_⟩
    exact List.forall_mem_cons.mpr ⟨rfl, List.forall_mem_cons.mpr ⟨rfl, side right back⟩⟩

theorem bracketless_of_parse {text : List Char} (read : (parse? text).isSome = true) :
    '[' ∉ text ∧ ']' ∉ text := by
  obtain ⟨pieces, read⟩ := Option.isSome_iff_exists.mp read
  have chars := chars_of_parse read
  constructor
  · intro mem
    exact absurd (chars _ mem) (by decide)
  · intro mem
    exact absurd (chars _ mem) (by decide)

end Ipv6

namespace Host

/-- A host that can be told from what stands around it in a URL. -/
def IsProper : Host → Prop
  | domain name => ∀ c ∈ name.toList, isForbiddenPlain c = false
  | _ => True

theorem forbidden_of_plain : ∀ c, isForbiddenPlain c = true →
    c.isLower = false ∧ isForbidden c = true ∧ c ∉ "%0123456789ABCDEF".toList := by
  simp only [isForbiddenPlain, List.contains_eq_mem, decide_eq_true_eq]
  exact List.all_iff_forall_prop.mp (by decide)

theorem proper_of_bracketed {text : List Char} {host : Host} (read : bracketed text = .ok host) :
    host.IsProper := by
  unfold bracketed at read
  split at read
  · obtain rfl := Except.ok.inj read
    trivial
  · contradiction

theorem proper_of_parse {text : List Char} {host : Host} (read : parse text = .ok host) :
    host.IsProper := by
  unfold parse at read
  dsimp only at read
  split_ifs at read with bracket forbidden empty number
  · exact proper_of_bracketed read
  · split at read
    · obtain rfl := Except.ok.inj read
      trivial
    · contradiction
  · obtain rfl := Except.ok.inj read
    intro c mem
    rw [String.toList_ofList] at mem
    obtain ⟨d, inside, lower⟩ := List.mem_map.mp mem
    by_contra plain
    obtain ⟨other, refused, -⟩ := forbidden_of_plain _ (Bool.of_not_eq_false plain)
    obtain rfl := eq_of_toLower lower other
    exact forbidden (List.any_eq_true.mpr ⟨d, inside, refused⟩)

theorem proper_of_parsePlain {text : List Char} {host : Host}
    (read : parsePlain text = .ok (some host)) : host.IsProper := by
  unfold parsePlain at read
  split_ifs at read with bracket forbidden empty
  · cases inner : bracketed text with
    | error fault =>
      rw [inner] at read
      contradiction
    | ok host =>
      rw [inner] at read
      obtain rfl := Option.some.inj (Except.ok.inj read)
      exact proper_of_bracketed inner
  · cases Except.ok.inj read
  · obtain rfl := Option.some.inj (Except.ok.inj read)
    intro c mem
    rw [String.toList_ofList] at mem
    by_contra plain
    obtain ⟨-, -, other⟩ := forbidden_of_plain _ (Bool.of_not_eq_false plain)
    obtain ⟨mem, -⟩ := (Percent.mem_encode mem).resolve_right other
    exact forbidden (List.any_eq_true.mpr ⟨c, mem, Bool.of_not_eq_false plain⟩)

end Host

namespace Url

/-- What a URL that was read has for its host and its port. -/
structure IsProper (u : Url) : Prop where
  host : ∀ host, u.host? = some host → host.IsProper
  port : ∀ port, u.port? = some port → defaultPort? u.scheme ≠ some port

theorem port_of_read {scheme : String} {text rest : List Char} {port : Option UInt16}
    (read : readPort scheme text = .ok (port, rest)) :
    ∀ p, port = some p → defaultPort? scheme ≠ some p := by
  unfold readPort at read
  dsimp only at read
  split_ifs at read with follows nothing
  · obtain ⟨rfl, -⟩ := Prod.mk.inj (Except.ok.inj read)
    simp
  · split at read
    · contradiction
    · obtain ⟨rfl, -⟩ := Prod.mk.inj (Except.ok.inj read)
      intro p
      split_ifs with default
      · simp
      · rintro ⟨⟩
        exact default

section Reading

variable {α β : Type} {x : Except Fault α} {b : β}

theorem bind_read {f : α → Except Fault β} (read : x >>= f = .ok b) :
    ∃ a, x = .ok a ∧ f a = .ok b := by
  cases x with
  | error fault => contradiction
  | ok a => exact ⟨a, rfl, read⟩

theorem map_read {f : α → β} (read : x.map f = .ok b) : ∃ a, x = .ok a ∧ f a = b := by
  cases x with
  | error fault => contradiction
  | ok a => exact ⟨a, rfl, Except.ok.inj read⟩

end Reading

theorem proper_of_readHost {special : Bool} {name : List Char} {host : Host}
    (read : readHost special name = .ok (some host)) : host.IsProper := by
  unfold readHost at read
  split_ifs at read
  · obtain ⟨other, parsed, same⟩ := map_read read
    exact Host.proper_of_parse (Option.some.inj same ▸ parsed)
  · exact Host.proper_of_parsePlain read

theorem proper_of_readAuthority {scheme : String} {text rest : List Char} {a : Authority}
    (read : readAuthority scheme text = .ok (a, rest)) :
    (∀ host, a.host = some host → host.IsProper) ∧
      ∀ port, a.port = some port → defaultPort? scheme ≠ some port := by
  obtain ⟨⟨username, password, text⟩, -, read⟩ := bind_read read
  obtain ⟨host, named, read⟩ := bind_read read
  obtain ⟨⟨port, rest⟩, behind, read⟩ := bind_read read
  dsimp only at behind read
  split_ifs at read
  obtain ⟨rfl, -⟩ := Prod.mk.inj (Except.ok.inj read)
  refine ⟨fun _ found => proper_of_readHost (named.trans (congrArg Except.ok found)), ?_⟩
  unfold portBehind at behind
  split at behind
  · split_ifs at behind
    exact port_of_read behind
  · obtain ⟨rfl, -⟩ := Prod.mk.inj (Except.ok.inj behind)
    simp

theorem proper_of_fileHost {text rest : List Char} {host : Host}
    (read : fileHost text = .ok (some host, rest)) : host.IsProper := by
  unfold fileHost at read
  dsimp only at read
  split_ifs at read
  · cases Except.ok.inj read
  · cases Except.ok.inj read
  · obtain ⟨other, parsed, same⟩ := map_read read
    split_ifs at same
    · cases same
    · obtain ⟨found, -⟩ := Prod.mk.inj same
      exact Host.proper_of_parse (Option.some.inj found ▸ parsed)

theorem proper_of_withFilePath {host : Option Host} (proper : ∀ h ∈ host, h.IsProper)
    (text : List Char) : (withFilePath host text).IsProper := by
  refine ⟨fun h found => ?_, fun port found => ?_⟩
  · rw [withFilePath, host?, Option.bind_some] at found
    dsimp only at found
    split_ifs at found
    exact proper h found
  · contradiction

theorem proper_of_fileUrl {text : List Char} {u : Url} (read : fileUrl text = .ok u) :
    u.IsProper := by
  unfold fileUrl at read
  split at read
  · obtain rfl := Except.ok.inj read
    exact proper_of_withFilePath (by simp) _
  · split at read
    · obtain rfl := Except.ok.inj read
      exact proper_of_withFilePath (by simp) _
    · obtain ⟨⟨host, path⟩, named, rfl⟩ := map_read read
      exact proper_of_withFilePath (fun h same => proper_of_fileHost (same ▸ named)) path

theorem proper_of_withPath {scheme : String} {text : List Char} {u : Url}
    (read : readAuthority scheme text >>= (fun found => .ok (withPath scheme (some found.1) found.2)) =
      .ok u) : u.IsProper := by
  obtain ⟨⟨authority, rest⟩, named, ended⟩ := bind_read read
  obtain rfl := Except.ok.inj ended
  obtain ⟨host, port⟩ := proper_of_readAuthority named
  exact ⟨host, port⟩

theorem proper_of_parse {text : String} {u : Url} (read : parse text = .ok u) : u.IsProper := by
  unfold parse at read
  split at read
  · contradiction
  · rename_i scheme text _
    dsimp only at read
    split_ifs at read with file special
    · exact proper_of_fileUrl read
    · exact proper_of_withPath read
    · split at read
      · exact proper_of_withPath read
      · obtain rfl := Except.ok.inj read
        exact ⟨nofun, nofun⟩
      · obtain rfl := Except.ok.inj read
        exact ⟨nofun, nofun⟩

end Url

end MatrixSession
