import MatrixSession.Proofs.Text.Decimal
import MatrixSession.Proofs.Url.Hosts
import MatrixSession.UserId

/-!
Ids of users who give their name alone. A name without a colon stands for a user of the homeserver.
One with a colon gets an id only if what is behind the colon is a server name and the homeserver's
own name reads as a port; the id is then one of that other server.
-/
namespace MatrixSession

namespace UserId

def IsPort (text : List Char) : Prop := (Decimal.readUnsigned? UInt16.size text).isSome = true

def IsPortless (server : List Char) : Prop :=
  (∀ c ∈ server, isHostChar c = true) ∨
    ∃ address, server = '[' :: (address ++ [']']) ∧ (Ipv6.parse? address).isSome = true

theorem IsPort.chars {text : List Char} (port : IsPort text) :
    ∀ c ∈ text, c.isDigit = true ∨ c = '+' := by
  obtain ⟨n, read⟩ := Option.isSome_iff_exists.mp port
  obtain ⟨sign, digits, signed, rfl, denotes, -⟩ := Decimal.readUnsigned?_iff_denotes.mp read
  intro c mem
  obtain mem | mem := List.mem_append.mp mem
  · obtain rfl | rfl : sign = [] ∨ sign = ['+'] := by simpa using signed
    · contradiction
    · exact .inr (List.mem_singleton.mp mem)
  · exact .inl (denotes.digits c mem)

theorem IsPort.free {text : List Char} (port : IsPort text) {c : Char}
    (other : c ∈ [':', '.', '[']) : c ∉ text := by
  intro mem
  have chars := port.chars c mem
  revert c
  simp

theorem isPortPart_append (rest server : List Char) :
    isPortPart (rest ++ ':' :: server) = true ↔ rest = [] ∧ IsPort server := by
  cases rest with
  | nil => simp [isPortPart, IsPort]
  | cons c rest =>
    by_cases colon : c = ':'
    · subst colon
      simp only [List.cons_append, isPortPart, reduceCtorEq, false_and, iff_false]
      intro port
      exact IsPort.free port (c := ':') (by simp) (by simp)
    · simp [isPortPart, colon]

theorem isServerName_bracket_append (rest : List Char) {server : List Char}
    (closed : ']' ∈ server → server.head? = some '[') :
    isServerName ('[' :: rest ++ ':' :: server) = true ↔
      IsPortless ('[' :: rest) ∧ IsPort server := by
  have portless : IsPortless ('[' :: rest) ↔
      ∃ address, rest = address ++ [']'] ∧ (Ipv6.parse? address).isSome = true := by
    simp [IsPortless, isHostChar]
  rw [portless, List.cons_append, isServerName]
  cases cut : Text.splitFirst? ']' rest with
  | some parts =>
    obtain ⟨address, port⟩ := parts
    obtain ⟨rfl, free⟩ := Text.splitFirst?_eq_some_iff.mp cut
    have whole : Text.splitFirst? ']' (address ++ ']' :: port ++ ':' :: server) =
        some (address, port ++ ':' :: server) :=
      Text.splitFirst?_eq_some_iff.mpr ⟨by simp, free⟩
    simp only [whole, Bool.and_eq_true, isPortPart_append]
    constructor
    · rintro ⟨parsed, rfl, port⟩
      exact ⟨⟨address, rfl, parsed⟩, port⟩
    · rintro ⟨⟨other, same, parsed⟩, port⟩
      have again := Text.splitFirst?_eq_some_iff.mpr ⟨same, (Ipv6.bracketless_of_parse parsed).2⟩
      rw [cut] at again
      simp only [Option.some.injEq, Prod.mk.injEq] at again
      obtain ⟨rfl, rfl⟩ := again
      exact ⟨parsed, rfl, port⟩
  | none =>
    -- the bracket could be closed in the server only, and it is opened again there
    have unclosed : ']' ∉ rest := Text.splitFirst?_eq_none_iff.mp cut
    have front : ']' ∉ rest ++ [':'] := by simp [unclosed]
    rw [show rest ++ ':' :: server = (rest ++ [':']) ++ server by simp,
      Text.splitFirst?_append front]
    constructor
    · intro valid
      cases closing : Text.splitFirst? ']' server with
      | none => simp [closing] at valid
      | some parts =>
        obtain ⟨left, right⟩ := parts
        obtain ⟨rfl, free⟩ := Text.splitFirst?_eq_some_iff.mp closing
        simp only [closing, Option.map_some, Bool.and_eq_true] at valid
        have opened := closed (by simp)
        cases left with
        | nil => simp at opened
        | cons c left =>
          obtain rfl : c = '[' := by simpa using opened
          exact absurd (Ipv6.bracketless_of_parse valid.1).1 (by simp)
    · rintro ⟨⟨address, rfl, -⟩, -⟩
      simp at unclosed

theorem isServerName_colon {host : List Char} (colonless : ':' ∉ host)
    (plain : host.head? ≠ some '[') (port : List Char) :
    isServerName (host ++ ':' :: port) = (host.all isHostChar && isPortPart (':' :: port)) := by
  have inside : ∀ c ∈ host, decide (c ≠ ':') = true := by
    intro c mem
    exact decide_eq_true fun same => colonless (same ▸ mem)
  have stops : ∀ c, (':' :: port).head? = some c → decide (c ≠ ':') = false := by simp
  have taken := Text.takeWhile_stops inside stops
  have dropped := Text.dropWhile_stops inside stops
  cases host with
  | nil => simp [isServerName]
  | cons c host =>
    rw [List.cons_append] at taken dropped ⊢
    rw [isServerName, taken, dropped]
    · simp
    · simpa using plain

theorem isServerName_plain_append {other : List Char} (plain : other.head? ≠ some '[')
    (server : List Char) :
    isServerName (other ++ ':' :: server) = true ↔ IsPortless other ∧ IsPort server := by
  have portless : IsPortless other ↔ ∀ c ∈ other, isHostChar c = true := by
    simp only [IsPortless, or_iff_left_iff_imp]
    rintro ⟨address, rfl, -⟩
    simp at plain
  rw [portless]
  cases cut : Text.splitFirst? ':' other with
  | none =>
    have colonless := Text.splitFirst?_eq_none_iff.mp cut
    have port := isPortPart_append [] server
    simp only [List.nil_append, true_and] at port
    rw [isServerName_colon colonless plain, Bool.and_eq_true, List.all_eq_true, port]
  | some parts =>
    obtain ⟨host, port⟩ := parts
    obtain ⟨rfl, colonless⟩ := Text.splitFirst?_eq_some_iff.mp cut
    have open' : host.head? ≠ some '[' := by cases host <;> simp_all
    have closed := isPortPart_append (':' :: port) server
    rw [List.append_assoc, List.cons_append, isServerName_colon colonless open', Bool.and_eq_true]
    constructor
    · rintro ⟨-, ported⟩
      exact absurd (closed.mp ported).1 (by simp)
    · rintro ⟨hosts, -⟩
      exact absurd (hosts ':' (by simp)) (by decide)

/-- What stands behind a colon in a name is a server name of its own, and what is put behind that is
    its port. -/
theorem isServerName_append {server : List Char}
    (closed : ']' ∈ server → server.head? = some '[') (other : List Char) :
    isServerName (other ++ ':' :: server) = true ↔ IsPortless other ∧ IsPort server := by
  by_cases bracket : other.head? = some '['
  · cases other with
    | nil => simp at bracket
    | cons c rest =>
      obtain rfl : c = '[' := by simpa using bracket
      exact isServerName_bracket_append rest closed
  · exact isServerName_plain_append bracket server

section Homeserver

variable {homeserver : Url} {host : Host} {server : String}

def portSuffix (homeserver : Url) : String :=
  (homeserver.port?.map fun p => ":" ++ Decimal.numeral p.toNat).getD ""

theorem chars_portSuffix : ∀ c ∈ (portSuffix homeserver).toList, c = ':' ∨ c.isDigit = true := by
  intro c mem
  cases port : homeserver.port? with
  | none => simp [portSuffix, port] at mem
  | some p =>
    simp only [portSuffix, port, Option.map_some, Option.getD_some, String.toList_append,
      List.mem_append] at mem
    rcases mem with colon | digit
    · exact .inl (by simpa using colon)
    · exact .inr ((Decimal.denotes_numeral _).digits c digit)

theorem bareHost_suffix (host : String) : (bareHost host).toList <:+ host.toList := by
  unfold bareHost
  split
  · rename_i rest split
    rw [String.toList_ofList, split]
    exact ⟨['w', 'w', 'w', '.'], rfl⟩
  · exact List.suffix_rfl

theorem bareHost_of_head {host : String} (other : host.toList.head? ≠ some 'w') :
    bareHost host = host := by
  unfold bareHost
  split
  · simp_all
  · rfl

theorem toList_ipv4 (address : UInt32) :
    (∀ c ∈ (Ipv4.text address).toList, c.isDigit = true ∨ c = '.') ∧
      '.' ∈ (Ipv4.text address).toList ∧ (Ipv4.text address).toList.head? ≠ some 'w' := by
  have written : ∃ a b c d, Ipv4.text address = Decimal.numeral a ++ "." ++ Decimal.numeral b ++
      "." ++ Decimal.numeral c ++ "." ++ Decimal.numeral d := ⟨_, _, _, _, rfl⟩
  obtain ⟨a, b, c, d, written⟩ := written
  simp only [written, String.toList_append]
  refine ⟨?_, by simp, ?_⟩
  · intro c mem
    simp only [List.mem_append] at mem
    rcases mem with (((((digit | point) | digit) | point) | digit) | point) | digit
    all_goals first | exact .inl ((Decimal.denotes_numeral _).digits c digit) | exact .inr (by simpa using point)
  · cases first : (Decimal.numeral a).toList with
    | nil => simp
    | cons c rest =>
      have digit := (Decimal.denotes_numeral a).digits c (by simp [first])
      rintro same
      obtain rfl : c = 'w' := by simpa using same
      exact absurd digit (by decide)

theorem toList_ipv6 (pieces : List UInt16) :
    (bareHost (Host.ipv6 pieces).text).toList.head? = some '[' := by
  have opened : (Host.ipv6 pieces).text.toList.head? = some '[' := by simp [Host.text]
  rwa [bareHost_of_head (by simp [opened])]

theorem closed_of_proper (proper : host.IsProper) (homeserver : Url) :
    ']' ∈ (bareHost host.text ++ portSuffix homeserver).toList →
      (bareHost host.text ++ portSuffix homeserver).toList.head? = some '[' := by
  intro mem
  rw [String.toList_append] at mem ⊢
  cases host with
  | ipv6 pieces =>
    have opened := toList_ipv6 pieces
    cases front : (bareHost (Host.ipv6 pieces).text).toList with
    | nil => simp [front] at opened
    | cons c rest => simpa [front] using opened
  | domain name =>
    exfalso
    rcases List.mem_append.mp mem with mem | mem
    · exact absurd (proper ']' ((bareHost_suffix name).mem mem)) (by decide)
    · exact absurd (chars_portSuffix ']' mem) (by decide)
  | ipv4 address =>
    exfalso
    rcases List.mem_append.mp mem with mem | mem
    · exact absurd ((toList_ipv4 address).1 ']' ((bareHost_suffix _).mem mem)) (by decide)
    · exact absurd (chars_portSuffix ']' mem) (by decide)

/-- Only a domain reads as a port, and only where no port follows it. -/
theorem domain_of_port (port : IsPort (bareHost host.text ++ portSuffix homeserver).toList) :
    homeserver.port? = none ∧ ∃ name, host = .domain name := by
  have free {c : Char} (other : c ∈ [':', '.', '[']) :
      c ∉ (bareHost host.text).toList ∧ c ∉ (portSuffix homeserver).toList := by
    have absent := port.free other
    rwa [String.toList_append, List.mem_append, not_or] at absent
  constructor
  · cases found : homeserver.port? with
    | none => rfl
    | some p => exact absurd (free (c := ':') (by simp)).2 (by simp [portSuffix, found])
  · cases host with
    | domain name => exact ⟨name, rfl⟩
    | ipv4 address =>
      obtain ⟨-, point, head⟩ := toList_ipv4 address
      have bare : bareHost (Host.ipv4 address).text = Ipv4.text address := bareHost_of_head head
      exact absurd point (bare ▸ (free (c := '.') (by simp)).1)
    | ipv6 pieces =>
      exact absurd (List.mem_of_head? (toList_ipv6 pieces)) (free (c := '[') (by simp)).1

end Homeserver

/-- How an id of a bare name on a server is split again: between the two, or at a colon in the name,
    and then what is behind that one becomes the server and the homeserver's own name its port. -/
inductive Reading (username server : List Char) : List Char → List Char → Prop
  | own (colonless : ':' ∉ username) (valid : isServerName server = true) :
      Reading username server username server
  | elsewhere {name other : List Char} (cut : Text.splitFirst? ':' username = some (name, other))
      (portless : IsPortless other) (port : IsPort server) :
      Reading username server name (other ++ ':' :: server)

variable {username id text : String} {homeserver : Url}

theorem validate_eq_ok_iff {id result : String} : validate id = .ok result ↔
    result = id ∧ ∃ name server, Text.splitFirst? ':' id.toList = some (name, server) ∧
      isServerName server = true := by
  unfold validate
  constructor
  · intro valid
    split at valid
    · contradiction
    · rename_i name server cut
      split_ifs at valid with accepted
      obtain rfl := Except.ok.inj valid
      exact ⟨rfl, name, server, cut, accepted⟩
  · rintro ⟨rfl, name, server, cut, accepted⟩
    simp [cut, accepted]

theorem reading_iff {username server : List Char} (closed : ']' ∈ server → server.head? = some '[')
    {name other : List Char} : Reading username server name other ↔
      Text.splitFirst? ':' ('@' :: (username ++ ':' :: server)) = some ('@' :: name, other) ∧
        isServerName other = true := by
  cases cut : Text.splitFirst? ':' username with
  | none =>
    have colonless := Text.splitFirst?_eq_none_iff.mp cut
    have whole : Text.splitFirst? ':' ('@' :: (username ++ ':' :: server)) =
        some ('@' :: username, server) :=
      Text.splitFirst?_eq_some_iff.mpr ⟨rfl, by simp [colonless]⟩
    rw [whole]
    constructor
    · rintro (⟨-, valid⟩ | ⟨found, -, -⟩)
      · exact ⟨rfl, valid⟩
      · simp [cut] at found
    · rintro ⟨same, valid⟩
      obtain ⟨rfl, rfl⟩ : username = name ∧ server = other := by simpa using same
      exact .own colonless valid
  | some parts =>
    obtain ⟨front, back⟩ := parts
    obtain ⟨rfl, colonless⟩ := Text.splitFirst?_eq_some_iff.mp cut
    have whole : Text.splitFirst? ':' ('@' :: (front ++ ':' :: back ++ ':' :: server)) =
        some ('@' :: front, back ++ ':' :: server) :=
      Text.splitFirst?_eq_some_iff.mpr ⟨by simp, by simp [colonless]⟩
    rw [whole]
    constructor
    · rintro (⟨free, -⟩ | ⟨found, portless, port⟩)
      · simp at free
      · obtain ⟨rfl, rfl⟩ : front = name ∧ back = _ := by simpa using cut.symm.trans found
        exact ⟨rfl, (isServerName_append closed back).mpr ⟨portless, port⟩⟩
    · rintro ⟨same, valid⟩
      obtain ⟨rfl, rfl⟩ : front = name ∧ back ++ ':' :: server = other := by simpa using same
      obtain ⟨portless, port⟩ := (isServerName_append closed back).mp valid
      exact .elsewhere cut portless port

theorem qualify_eq_ok_iff (proper : homeserver.IsProper)
    (bare : username.toList.head? ≠ some '@') (id : String) : qualify username homeserver = .ok id ↔
      ∃ server name other, serverName? homeserver = some server ∧
        id = "@" ++ username ++ ":" ++ server ∧
        Text.splitFirst? ':' id.toList = some ('@' :: name, other) ∧
        Reading username.toList server.toList name other := by
  unfold qualify
  rw [if_neg bare]
  cases found : homeserver.host? with
  | none => simp [serverName?, found]
  | some host =>
    have named : serverName? homeserver = some (bareHost host.text ++ portSuffix homeserver) := by
      rw [serverName?, found]
      rfl
    have closed := closed_of_proper (proper.host host found) homeserver
    generalize bareHost host.text ++ portSuffix homeserver = server at named closed
    have spelled : ("@" ++ username ++ ":" ++ server).toList =
        '@' :: (username.toList ++ ':' :: server.toList) := by simp
    rw [named]
    constructor
    · intro valid
      obtain ⟨rfl, first, other, cut, accepted⟩ := validate_eq_ok_iff.mp valid
      rw [spelled] at cut
      obtain ⟨name, rfl⟩ : ∃ name, first = '@' :: name := by
        cases first with
        | nil => simpa using (Text.splitFirst?_eq_some_iff.mp cut).1
        | cons c name =>
          obtain ⟨same, -⟩ := Text.splitFirst?_eq_some_iff.mp cut
          obtain rfl : '@' = c := (List.cons.inj same).1
          exact ⟨name, rfl⟩
      refine ⟨server, name, other, rfl, rfl, ?_, ?_⟩
      · rw [spelled, cut]
      · exact (reading_iff closed).mpr ⟨cut, accepted⟩
    · rintro ⟨server, name, other, ⟨⟩, rfl, -, reading⟩
      obtain ⟨cut, accepted⟩ := (reading_iff closed).mp reading
      exact validate_eq_ok_iff.mpr ⟨rfl, _, other, spelled ▸ cut, accepted⟩

/-- A bare name gets an id just if what is put together from it and the homeserver's own name reads
    as one. It reads as that name on the homeserver's own server, its host and its port if that is
    not the default one, just if the name has no colon. Otherwise the homeserver is a domain without
    a port, and the domain reads as a port itself. -/
theorem own_server_iff_colon_free (parsed : Url.parse text = .ok homeserver)
    (bare : username.toList.head? ≠ some '@') :
    (qualify username homeserver = .ok id ↔
      ∃ server name other, serverName? homeserver = some server ∧
        id = "@" ++ username ++ ":" ++ server ∧
        Text.splitFirst? ':' id.toList = some ('@' :: name, other) ∧
        Reading username.toList server.toList name other) ∧
    (qualify username homeserver = .ok id → ∃ host server, homeserver.host? = some host ∧
      server = bareHost host.text ++ portSuffix homeserver ∧
      (∀ port, homeserver.port? = some port → Url.defaultPort? homeserver.scheme ≠ some port) ∧
      (Text.splitFirst? ':' id.toList = some ('@' :: username.toList, server.toList) ↔
        ':' ∉ username.toList) ∧
      (':' ∈ username.toList → homeserver.port? = none ∧ (∃ name, host = .domain name) ∧
        IsPort server.toList)) := by
  have proper := Url.proper_of_parse parsed
  have made := qualify_eq_ok_iff proper bare id
  refine ⟨made, fun ended => ?_⟩
  obtain ⟨server, name, other, named, -, cut, reading⟩ := made.mp ended
  obtain ⟨host, found, rfl⟩ := Option.map_eq_some_iff.mp named
  refine ⟨host, _, found, rfl, proper.port, ?_⟩
  cases reading with
  | own colonless valid =>
    refine ⟨⟨fun _ => colonless, fun _ => cut⟩, ?_⟩
    intro colon
    exact absurd colon colonless
  | elsewhere inner portless port =>
    obtain ⟨whole, -⟩ := Text.splitFirst?_eq_some_iff.mp inner
    have colon : ':' ∈ username.toList := by simp [whole]
    constructor
    · constructor
      · intro own
        have free := (Text.splitFirst?_eq_some_iff.mp own).2
        exact fun mem => free (List.mem_cons_of_mem _ mem)
      · intro colonless
        exact absurd colon colonless
    · intro _
      obtain ⟨unported, domain⟩ := domain_of_port port
      exact ⟨unported, domain, port⟩

def ported : Url :=
  ⟨"http", some ⟨"", "", some (.domain "www.hs.example"), some 8448⟩, false, .segments [""], none,
    none⟩

theorem carol_on_own_server :
    Url.parse "http://www.hs.example:8448" = .ok ported ∧ "carol".toList.head? ≠ some '@' ∧
      qualify "carol" ported = .ok "@carol:hs.example:8448" ∧
      Text.splitFirst? ':' "@carol:hs.example:8448".toList =
        some ("@carol".toList, "hs.example:8448".toList) := by
  have parsed : Url.parse "http://www.hs.example:8448" = .ok ported := by decide +kernel
  have bare : "carol".toList.head? ≠ some '@' := by decide
  obtain ⟨made, own⟩ := own_server_iff_colon_free parsed bare
  have server : serverName? ported = some "hs.example:8448" := by decide
  have ended := made.mpr ⟨_, _, _, server, rfl, rfl, .own (by decide) (by decide)⟩
  obtain ⟨host, named, found, rfl, -, split, -⟩ := own ended
  obtain rfl := Option.some.inj found
  exact ⟨parsed, bare, ended, split.mpr (by decide)⟩

def numbered : Url :=
  ⟨"https", some ⟨"", "", some (.domain "+80"), none⟩, false, .segments [""], none, none⟩

/-- What is behind a colon in a name is taken for the server, and the homeserver for its port. -/
theorem colon_names_other_server :
    Url.parse "https://+80" = .ok numbered ∧ "alice:evil.org".toList.head? ≠ some '@' ∧
      qualify "alice:evil.org" numbered = .ok "@alice:evil.org:+80" ∧
      Text.splitFirst? ':' "@alice:evil.org:+80".toList =
        some ("@alice".toList, "evil.org:+80".toList) := by
  have parsed : Url.parse "https://+80" = .ok numbered := by decide +kernel
  exact ⟨parsed, by decide, by decide, by decide⟩

end UserId

end MatrixSession
