import MatrixSession.Proofs.Connection.Description
import MatrixSession.Proofs.Connection.Promises

/-!
What connecting makes of a description of the server: of all that it may hold, only the list of versions
plays a part.
-/
namespace MatrixSession

open Json Utf8

namespace InMemory

variable {σ : Type} (outside : (op : Operation) → σ → op.Reply × σ)

def Serves (m : InMemory σ) (text : List Char) : Prop :=
  ∀ server command options, Endpoint.versions.build server = .ok command →
    (outside (.send command options) m.around).1 = .ok ⟨200, encodeChars text⟩

/-- With nothing in the cache, the server describes itself by a JSON object that lists the given
    versions, and the other members of the object can be read. -/
def Announces (m : InMemory σ) (versions : List String) : Prop :=
  m.cache = .empty ∧ ∃ text members, m.Serves outside text ∧ Document text (.object members) ∧
    ServerSupports.Lists members versions ∧ ServerSupports.Readable members

theorem stale_empty (now : σ → Nat) {m : InMemory σ} (empty : m.cache = .empty) (server : Url)
    (maxAge : Option Nat) : ∀ held, ¬ m.Fresh now server maxAge held := by
  rintro held ⟨stored, found, -⟩
  rw [empty] at found
  contradiction

theorem said_unbuilt {m : InMemory σ} {server : Url} {failure : Failure}
    (unbuilt : Endpoint.versions.build server = .error failure) (timeout : Option Nat) :
    m.said outside server timeout = .error failure := by
  simp only [said, unbuilt, bind, Except.bind]

theorem said_announced {m : InMemory σ} {versions : List String}
    (announces : m.Announces outside versions) {server : Url} {command : Command}
    (built : Endpoint.versions.build server = .ok command) (timeout : Option Nat) :
    ∃ supports, m.said outside server timeout = .ok supports ∧ supports.versions = versions := by
  obtain ⟨-, text, members, serves, document, lists, readable⟩ := announces
  obtain ⟨supports, read, same⟩ := ServerSupports.ofBytes?_document document lists readable
  refine ⟨supports, ?_, same⟩
  simp only [said, built, serves server command _ built, bind, Except.bind, Response.decode, read]

end InMemory

namespace Client

def settle (settings : Settings) (versions : List String) : Except Failure Client := do
  let server ← (Url.parse settings.serverUrl).mapError .invalidUrl
  let known ← settings.catalog.supportedVersions.mapError .catalog
  let _ ← Endpoint.versions.build server
  negotiate settings server known versions

theorem connect_announced {σ : Type} (now : σ → Nat) (outside : (op : Operation) → σ → op.Reply × σ)
    (settings : Settings) {m : InMemory σ} {versions : List String}
    (announces : m.Announces outside versions) :
    ((connect settings).run.run (InMemory.answer now outside) m).1 = settle settings versions := by
  unfold settle
  cases parsed : Url.parse settings.serverUrl with
  | error fault =>
    rw [connect_unparsed parsed]
    rfl
  | ok server =>
    cases listed : settings.catalog.supportedVersions with
    | error fault =>
      rw [connect_unlisted parsed listed]
      rfl
    | ok known =>
      have stale := InMemory.stale_empty now announces.1 server settings.config.cacheMaxAge
      rw [(connect_fetched now outside m parsed listed stale).1]
      cases built : Endpoint.versions.build server with
      | error failure =>
        simp only [m.said_unbuilt outside built, Except.mapError, bind, Except.bind, built]
      | ok command =>
        obtain ⟨supports, said, same⟩ := m.said_announced outside announces built
          (some settings.config.requestTimeout)
        simp only [said, same, Except.mapError, bind, Except.bind, built]

/-- Two servers that list the same versions come to the same, however else their descriptions differ:
    it is the address, the catalog and those versions alone that decide. -/
theorem versions_determine_connection {σ σ' : Type} (settings : Settings)
    (now : σ → Nat) (outside : (op : Operation) → σ → op.Reply × σ) {m : InMemory σ}
    (now' : σ' → Nat) (outside' : (op : Operation) → σ' → op.Reply × σ') {m' : InMemory σ'}
    {versions : List String} (announces : m.Announces outside versions)
    (announces' : m'.Announces outside' versions) :
    ((connect settings).run.run (InMemory.answer now outside) m).1 =
        ((connect settings).run.run (InMemory.answer now' outside') m').1 ∧
      ((connect settings).run.run (InMemory.answer now outside) m).1 = settle settings versions := by
  have settled := connect_announced now outside settings announces
  have settled' := connect_announced now' outside' settings announces'
  exact ⟨settled.trans settled'.symm, settled⟩

section Samples

def describing (text : List Char) : (op : Operation) → Unit → op.Reply × Unit :=
  replying (.ok ⟨200, encodeChars text⟩)

def plainMember (key : String) (value : Tree) (text : List Char) : Member :=
  ⟨.ofString key, '"' :: key.toList ++ ['"'], [], [], value, text⟩

def isPlain (c : Char) : Bool := 0x20 ≤ c.toNat && c != '"' && c != '\\'

theorem quoted_plain (text : String) (plain : text.toList.all isPlain = true) :
    Quoted ('"' :: text.toList ++ ['"']) (.ofString text) := by
  have spelled (cs : List Char) (plain : ∀ c ∈ cs, isPlain c = true) :
      Spelled cs (cs.map some) := by
    induction cs with
    | nil => exact .nil
    | cons c cs ih =>
      have first := plain c List.mem_cons_self
      simp only [isPlain, Bool.and_eq_true, decide_eq_true_eq, bne_iff_ne] at first
      obtain ⟨⟨visible, unquoted⟩, unescaped⟩ := first
      exact .cons (.plain visible unquoted unescaped)
        (ih fun d mem => plain d (List.mem_cons_of_mem c mem))
  exact .quotes (spelled text.toList (List.all_eq_true.mp plain))

structure Extra (m : Member) : Prop where
  quoted : Quoted m.keyText m.key
  blank : Blank m.before ∧ Blank m.after
  denotes : Denotes m.valueText m.value
  other : m.key ≠ .ofString "versions"

def versionsMember : Member :=
  plainMember "versions" (.array [.text "v1.1"]) "[\"v1.1\"]".toList

def described (others : List Member) : List Char :=
  '{' :: List.intercalate [','] ((versionsMember :: others).map Member.text) ++ ['}']

def namedTrees (others : List Member) : List (Content × Tree) :=
  (versionsMember :: others).map fun m => (m.key, m.value)

theorem separated_intercalate (text : List Char) (texts : List (List Char)) :
    Separated (text :: texts) (List.intercalate [','] (text :: texts)) := by
  induction texts generalizing text with
  | nil => simpa using @Separated.one [] text [] blank_nil blank_nil
  | cons next texts ih =>
    simpa using @Separated.more [] text [] _ _ blank_nil blank_nil (ih next)

theorem document_described {others : List Member} (extra : ∀ m ∈ others, Extra m) :
    Document (described others) (.object (namedTrees others)) := by
  have version : Denotes "[\"v1.1\"]".toList (.array [.text "v1.1"]) := by
    refine @Denotes.array [("\"v1.1\"".toList, .text "v1.1")] _ ?_
      (.some (separated_intercalate _ []))
    intro item mem
    obtain rfl := List.mem_singleton.mp mem
    exact .string (quoted_plain "v1.1" (by decide))
  have quoted : Quoted versionsMember.keyText versionsMember.key := quoted_plain "versions" (by decide)
  have denotes : Denotes (described others) (.object (namedTrees others)) := by
    refine .object (fun m mem => ?_) (fun m mem => ?_) (.some (separated_intercalate _ _))
    · obtain rfl | mem := List.mem_cons.mp mem
      · exact ⟨quoted, blank_nil, blank_nil⟩
      · exact ⟨(extra m mem).quoted, (extra m mem).blank⟩
    · obtain rfl | mem := List.mem_cons.mp mem
      · exact version
      · exact (extra m mem).denotes
  simpa using Document.around blank_nil denotes blank_nil

theorem lists_described {others : List Member} (extra : ∀ m ∈ others, Extra m) :
    ServerSupports.Lists (namedTrees others) ["v1.1"] := by
  constructor
  · have apart : Content.ofString "versions" ∉ others.map Member.key := by
      intro mem
      obtain ⟨m, inside, same⟩ := List.mem_map.mp mem
      exact (extra m inside).other same
    have keys : (namedTrees others).map (·.1) =
        .ofString "versions" :: others.map Member.key := by
      simp [namedTrees, Function.comp_def, versionsMember, plainMember]
    rw [keys, List.count_cons_self, List.count_eq_zero.mpr apart]
  · intro entry mem isVersions
    obtain ⟨m, inside, rfl⟩ := List.mem_map.mp mem
    obtain rfl | inside := List.mem_cons.mp inside
    · rfl
    · exact absurd isVersions (extra m inside).other

def loneValue : Member := plainMember "x" (.string [none]) "\"\\ud800\"".toList

def nullFlags : Member := plainMember "unstable_features" .null "null".toList

def flag (name : Content) (text : List Char) : Member :=
  plainMember "unstable_features" (.object [(name, .bool true)])
    ('\x7b' :: (text ++ ':' :: "true".toList) ++ ['\x7d'])

def plainFlag : Member := flag (.ofString "a") "\"a\"".toList

def loneFlag : Member := flag [none] "\"\\ud800\"".toList

theorem extra_lone_value : Extra loneValue where
  quoted := quoted_plain "x" (by decide)
  blank := ⟨blank_nil, blank_nil⟩
  denotes := .string quoted_lone
  other := by decide

theorem extra_lone_name : Extra loneName where
  quoted := quoted_lone
  blank := ⟨blank_nil, blank_nil⟩
  denotes := .null
  other := by decide

theorem extra_null_flags : Extra nullFlags where
  quoted := quoted_plain "unstable_features" (by decide)
  blank := ⟨blank_nil, blank_nil⟩
  denotes := .null
  other := by decide

theorem extra_flag {name : Content} {text : List Char} (quoted : Quoted text name) :
    Extra (flag name text) where
  quoted := quoted_plain "unstable_features" (by decide)
  blank := ⟨blank_nil, blank_nil⟩
  denotes := by
    let on : Member := ⟨name, text, [], [], .bool true, "true".toList⟩
    have listed : Listed ([on].map Member.text) (text ++ ':' :: "true".toList) := by
      simpa [on, Member.text] using Listed.some (separated_intercalate on.text [])
    refine @Denotes.object [on] _ ?_ ?_ listed
    · intro m mem
      obtain rfl := List.mem_singleton.mp mem
      exact ⟨quoted, blank_nil, blank_nil⟩
    · intro m mem
      obtain rfl := List.mem_singleton.mp mem
      exact .yes
  other := show Content.ofString "unstable_features" ≠ .ofString "versions" by decide

def outcome (text : List Char) : Except Failure Client :=
  ((connect (.ofUrl "http://hs")).run.run (InMemory.answer (fun _ => 0) (describing text))
    ⟨.empty, .empty, ()⟩).1

theorem announces_described {others : List Member} (extra : ∀ m ∈ others, Extra m)
    (readable : ServerSupports.Readable (namedTrees others)) :
    (⟨.empty, .empty, ()⟩ : InMemory Unit).Announces (describing (described others)) ["v1.1"] :=
  ⟨rfl, described others, namedTrees others, fun _ _ _ _ => rfl, document_described extra,
    lists_described extra, readable⟩

theorem readable_described {others : List Member} (flags : List (String × Bool))
    (named : ∀ m ∈ others, ∃ key, m.key = .ofString key)
    (once : (others.map Member.key).count (.ofString "unstable_features") ≤ 1)
    (flagged : ∀ m ∈ others, m.key = .ofString "unstable_features" →
      m.value = .object (flags.map fun (name, on) => (.ofString name, .bool on))) :
    ServerSupports.Readable (namedTrees others) where
  named := by
    intro entry mem
    obtain ⟨m, inside, rfl⟩ := List.mem_map.mp mem
    obtain rfl | inside := List.mem_cons.mp inside
    · exact ⟨"versions", rfl⟩
    · exact named m inside
  once := by
    have other : versionsMember.key ≠ Content.ofString "unstable_features" := by decide
    simpa [namedTrees, Function.comp_def, List.count_cons_of_ne other] using once
  flags := by
    refine ⟨flags, ?_⟩
    intro entry mem isUnstable
    obtain ⟨m, inside, rfl⟩ := List.mem_map.mp mem
    obtain rfl | inside := List.mem_cons.mp inside
    · exact absurd isUnstable (by decide)
    · exact flagged m inside isUnstable

theorem settled_sample : ∃ client, settle (.ofUrl "http://hs") ["v1.1"] = .ok client := by
  obtain ⟨client, negotiated, -⟩ := negotiate_listed (.ofUrl "http://hs") rfl
  have built : (Endpoint.versions.build .hs).toOption.isSome = true := by decide +kernel
  have parsed : Url.parse (Settings.ofUrl "http://hs").serverUrl = .ok .hs := Url.parse_hs
  refine ⟨client, ?_⟩
  rw [settle, parsed, show (Settings.ofUrl "http://hs").catalog = .builtin from rfl,
    Catalog.listed_builtin]
  cases request : Endpoint.versions.build .hs with
  | error failure => simp [request, Except.toOption] at built
  | ok command =>
    simp only [Except.mapError, bind, Except.bind, request]
    exact negotiated

theorem outcome_refused {others : List Member}
    (refused : (ServerSupports.ofBytes? (encodeChars (described others))).isNone = true) :
    outcome (described others) = .error (.protocol .malformedJson) := by
  have parsed : Url.parse (Settings.ofUrl "http://hs").serverUrl = .ok .hs := Url.parse_hs
  have unread := Option.isNone_iff_eq_none.mp refused
  have built : (Endpoint.versions.build .hs).toOption.isSome = true := by decide +kernel
  have stale := InMemory.stale_empty (fun _ => 0) (m := ⟨.empty, .empty, ()⟩) rfl
  rw [outcome, (connect_fetched _ _ _ parsed Catalog.listed_builtin (stale _ _)).1, InMemory.said]
  cases request : Endpoint.versions.build .hs with
  | error failure => simp [request, Except.toOption] at built
  | ok command =>
    simp only [describing, replying, Response.decode, unread, bind, Except.bind]

theorem announces_bare :
    (⟨.empty, .empty, ()⟩ : InMemory Unit).Announces (describing (described [])) ["v1.1"] :=
  announces_described nofun (readable_described [] nofun (by decide) nofun)

theorem extra_adorned : ∀ m ∈ [loneValue, plainFlag], Extra m :=
  List.forall_mem_cons.mpr ⟨extra_lone_value,
    List.forall_mem_singleton.mpr (extra_flag (quoted_plain "a" (by decide)))⟩

theorem readable_adorned : ServerSupports.Readable (namedTrees [loneValue, plainFlag]) := by
  refine readable_described [("a", true)] ?_ (by decide) ?_
  · exact List.forall_mem_cons.mpr ⟨⟨"x", rfl⟩, List.forall_mem_singleton.mpr ⟨_, rfl⟩⟩
  · refine List.forall_mem_cons.mpr ⟨?_, List.forall_mem_singleton.mpr fun _ => rfl⟩
    intro isUnstable
    exact absurd isUnstable (by decide)

theorem adorned_versions_determine :
    (⟨.empty, .empty, ()⟩ : InMemory Unit).Announces (describing (described [])) ["v1.1"] ∧
      (⟨.empty, .empty, ()⟩ : InMemory Unit).Announces
        (describing (described [loneValue, plainFlag])) ["v1.1"] ∧
      outcome (described []) = outcome (described [loneValue, plainFlag]) ∧
      ∃ client, outcome (described []) = .ok client := by
  have adorned := announces_described extra_adorned readable_adorned
  obtain ⟨same, settled⟩ := versions_determine_connection (.ofUrl "http://hs") (fun _ => 0)
    (describing (described [])) (fun _ => 0) (describing (described [loneValue, plainFlag]))
    announces_bare adorned
  obtain ⟨client, accepted⟩ := settled_sample
  exact ⟨announces_bare, adorned, same, client, settled.trans accepted⟩

/-- A member that cannot be read makes a difference: flags that are no object, flags that are given
    twice, and names with a lone surrogate. -/
theorem other_members_can_refuse :
    (∃ client, outcome (described []) = .ok client) ∧
      ∀ others ∈ [[nullFlags], [plainFlag, plainFlag], [loneFlag], [loneName]],
        Document (described others) (.object (namedTrees others)) ∧
          ServerSupports.Lists (namedTrees others) ["v1.1"] ∧
          outcome (described others) = .error (.protocol .malformedJson) := by
  have refused : ∀ others ∈ [[nullFlags], [plainFlag, plainFlag], [loneFlag], [loneName]],
      (ServerSupports.ofBytes? (encodeChars (described others))).isNone = true := by
    decide +kernel
  have extra : ∀ others ∈ [[nullFlags], [plainFlag, plainFlag], [loneFlag], [loneName]],
      ∀ m ∈ others, Extra m := by
    have plain := extra_flag (quoted_plain "a" (by decide))
    simp only [List.forall_mem_cons, List.not_mem_nil, false_implies, implies_true, and_true]
    exact ⟨extra_null_flags, ⟨plain, plain⟩, extra_flag quoted_lone, extra_lone_name⟩
  constructor
  · obtain ⟨client, accepted⟩ := settled_sample
    exact ⟨client, (connect_announced _ _ _ announces_bare).trans accepted⟩
  · intro others mem
    exact ⟨document_described (extra others mem), lists_described (extra others mem),
      outcome_refused (refused others mem)⟩

end Samples

end Client

end MatrixSession
