import MatrixSession.Config
import MatrixSession.Proofs.Discovery.Basic
import MatrixSession.Proofs.Text.Blank
import MatrixSession.Proofs.Text.Decimal
import MatrixSession.Proofs.Text.Utf8

/-!
What the environment makes of the settings. A value is taken for a number of seconds just if it is written
as one, and each setting is decided by its own variable. Zero seconds stand for no expiry, so an entry
that was just stored in the cache is always found.
-/
namespace MatrixSession

namespace Environment

/-- The bytes are a number of seconds: in UTF-8 a numeral that fits 64 bits, maybe behind a plus sign, with
    white space around. -/
inductive IsSeconds : List UInt8 → Nat → Prop
  | written {before sign digits after : List Char} {n : Nat}
      (margins : ∀ c ∈ before ++ after, c.toNat ∈ Text.whiteSpace) (signed : sign ∈ [[], ['+']])
      (number : Decimal.Denotes digits n) (small : n < UInt64.size) :
      IsSeconds (Utf8.encodeChars (before ++ (sign ++ digits) ++ after)) n

/-- The field follows the value of its variable: it is what a number of seconds comes to, and the default
    without a value or with one that is no number of seconds. -/
structure Follows {α : Type} (ofSeconds : Nat → α) (default : α) (value : Option (List UInt8))
    (field : α) : Prop where
  given : ∀ bytes n, value = some bytes → IsSeconds bytes n → field = ofSeconds n
  left : (∀ bytes n, value = some bytes → ¬IsSeconds bytes n) → field = default

variable {env env' : Environment} {name : String} {n : Nat}

theorem solid_number {sign digits : List Char} (signed : sign ∈ [[], ['+']])
    (number : Decimal.Denotes digits n) : Text.Solid Text.isBlank (sign ++ digits) := by
  have ⟨nonempty, allDigits⟩ := (Decimal.denotes_iff.mp number).1
  have solid (c : Char) (mem : c ∈ digits) : Text.isBlank c = false :=
    Text.isBlank_of_digit (allDigits c mem)
  constructor
  · intro c first
    obtain rfl | rfl : sign = [] ∨ sign = ['+'] := by simpa using signed
    · exact solid c (List.mem_of_head? first)
    · obtain rfl : '+' = c := Option.some.inj first
      decide
  · intro c last
    rw [List.getLast?_append_of_ne_nil _ nonempty] at last
    exact solid c (List.mem_of_getLast? last)

theorem seconds?_eq_some_iff :
    env.seconds? name = some n ↔ ∃ bytes, env.lookup name = some bytes ∧ IsSeconds bytes n := by
  simp only [seconds?, text?, Option.bind_eq_bind, Option.bind_eq_some_iff, Utf8.decode?_eq_some_iff,
    Decimal.readUnsigned?_iff_denotes]
  constructor
  · rintro ⟨text, ⟨bytes, found, rfl⟩, sign, digits, signed, trimmed, number, small⟩
    obtain ⟨before, after, whole, -, margins⟩ := Text.trimmed_eq_iff.mp trimmed
    refine ⟨_, found, ?_⟩
    rw [Utf8.encode, whole]
    exact .written (fun c mem => Text.isBlank_iff.mp (margins c mem)) signed number small
  · rintro ⟨_, found, @⟨before, sign, digits, after, n, margins, signed, number, small⟩⟩
    refine ⟨String.ofList (before ++ (sign ++ digits) ++ after), ⟨_, found, ?_⟩, sign, digits, signed,
      ?_, number, small⟩
    · rw [Utf8.encode, String.toList_ofList]
    · rw [String.toList_ofList]
      exact Text.trimmed_solid (solid_number signed number) fun c mem =>
        Text.isBlank_iff.mpr (margins c mem)

theorem follows_seconds {α : Type} (ofSeconds : Nat → α) (default : α) (env : Environment)
    (name : String) :
    Follows ofSeconds default (env.lookup name)
      (((env.seconds? name).map ofSeconds).getD default) where
  given bytes n found seconds := by
    rw [seconds?_eq_some_iff.mpr ⟨bytes, found, seconds⟩]
    rfl
  left unread := by
    cases read : env.seconds? name with
    | none => rfl
    | some n =>
      obtain ⟨bytes, found, seconds⟩ := seconds?_eq_some_iff.mp read
      exact absurd seconds (unread bytes n found)

theorem seconds?_congr (same : env.lookup name = env'.lookup name) :
    env.seconds? name = env'.seconds? name := by
  rw [seconds?, seconds?, text?, text?, same]

end Environment

namespace ClientConfig

open Environment

theorem second_le_maxAge (env : Environment) {age : Nat}
    (expires : (ofEnvironment env).cacheMaxAge = some age) : 1000 ≤ age := by
  simp only [ofEnvironment] at expires
  cases read : env.seconds? "COMMLINK_VERSIONS_CACHE_TTL_SECS" with
  | none =>
    rw [read] at expires
    obtain rfl : 3600000 = age := Option.some.inj expires
    decide
  | some n =>
    rw [read] at expires
    simp only [Option.map_some, Option.getD_some, maxAgeOfSeconds] at expires
    split_ifs at expires with zero
    obtain rfl := Option.some.inj expires
    omega

/-- A variable with a number of seconds sets its own field to that time, and with anything else the field
    is left at its default; the other variables play no part. Zero seconds make the cache keep its entries
    for ever, so no environment makes it lose an entry in the second after it was stored. -/
theorem environment_sets_fields (env : Environment) :
    let config := ofEnvironment env
    Follows (· * 1000) default.requestTimeout (env.lookup "COMMLINK_REQUEST_TIMEOUT_SECS")
        config.requestTimeout ∧
      Follows (· * 1000) default.lockTimeout (env.lookup "COMMLINK_LOCK_TIMEOUT_SECS")
        config.lockTimeout ∧
      Follows (fun n => if n = 0 then none else some (n * 1000)) default.cacheMaxAge
        (env.lookup "COMMLINK_VERSIONS_CACHE_TTL_SECS") config.cacheMaxAge ∧
      (∀ env' : Environment,
        (env.lookup "COMMLINK_REQUEST_TIMEOUT_SECS" = env'.lookup "COMMLINK_REQUEST_TIMEOUT_SECS" →
          config.requestTimeout = (ofEnvironment env').requestTimeout) ∧
        (env.lookup "COMMLINK_LOCK_TIMEOUT_SECS" = env'.lookup "COMMLINK_LOCK_TIMEOUT_SECS" →
          config.lockTimeout = (ofEnvironment env').lockTimeout) ∧
        (env.lookup "COMMLINK_VERSIONS_CACHE_TTL_SECS" =
            env'.lookup "COMMLINK_VERSIONS_CACHE_TTL_SECS" →
          config.cacheMaxAge = (ofEnvironment env').cacheMaxAge)) ∧
      config.cacheMaxAge ≠ some 0 ∧
      ∀ (cache : VersionCache) (stored now : Nat) (key : String) (supports : ServerSupports),
        now < stored + 1000 →
          (cache.store stored key supports).lookup now key config.cacheMaxAge = some supports := by
  intro config
  refine ⟨follows_seconds _ _ env _, follows_seconds _ _ env _, follows_seconds _ _ env _, ?_, ?_, ?_⟩
  · intro env'
    refine ⟨fun same => ?_, fun same => ?_, fun same => ?_⟩ <;>
      simp only [config, ofEnvironment, seconds?_congr same]
  · intro zero
    have long := second_le_maxAge env zero
    contradiction
  · intro cache stored now key supports young
    refine cache.lookup_store stored now key supports fun age expires => ?_
    have long := second_le_maxAge env expires
    omega

def oddEnvironment : Environment :=
  [("COMMLINK_REQUEST_TIMEOUT_SECS", Utf8.encode "\u2003+0018446744073709551615\u3000"),
    ("COMMLINK_LOCK_TIMEOUT_SECS", [0x35, 0xFF]), ("COMMLINK_VERSIONS_CACHE_TTL_SECS", [0x30])]

theorem odd_environment_sets_fields :
    (ofEnvironment oddEnvironment).requestTimeout = 18446744073709551615000 ∧
      (ofEnvironment oddEnvironment).lockTimeout = 10000 ∧
      (ofEnvironment oddEnvironment).cacheMaxAge = none ∧
      (ofEnvironment oddEnvironment).lockTimeout =
        (ofEnvironment [("COMMLINK_LOCK_TIMEOUT_SECS", [0x35, 0xFF])]).lockTimeout ∧
      (VersionCache.empty.store 7 "key" ⟨["v1.1"], .empty⟩).lookup 1006 "key"
        (ofEnvironment oddEnvironment).cacheMaxAge = some ⟨["v1.1"], .empty⟩ := by
  obtain ⟨request, lock, age, own, -, kept⟩ := environment_sets_fields oddEnvironment
  have most : oddEnvironment.seconds? "COMMLINK_REQUEST_TIMEOUT_SECS" =
      some 18446744073709551615 := by decide +kernel
  have unread : oddEnvironment.seconds? "COMMLINK_LOCK_TIMEOUT_SECS" = none := by decide +kernel
  have zero : oddEnvironment.seconds? "COMMLINK_VERSIONS_CACHE_TTL_SECS" = some 0 := by
    decide +kernel
  obtain ⟨bytes, found, seconds⟩ := seconds?_eq_some_iff.mp most
  obtain ⟨bytes', found', seconds'⟩ := seconds?_eq_some_iff.mp zero
  refine ⟨request.given bytes _ found seconds, lock.left ?_, age.given bytes' 0 found' seconds',
    (own _).2.1 rfl, kept _ 7 1006 "key" _ (by decide)⟩
  intro bytes n found seconds
  have read := seconds?_eq_some_iff.mpr ⟨bytes, found, seconds⟩
  rw [unread] at read
  contradiction

end ClientConfig

end MatrixSession
