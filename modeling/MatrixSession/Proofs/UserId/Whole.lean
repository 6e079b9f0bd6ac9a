import MatrixSession.Proofs.UserId.Qualified

/-!
Ids that are given whole. An id that was made from a name is one, and it stays as it is when it is handed
in again, on whatever homeserver; what else starts with `@` fares alike on all homeservers.
-/
namespace MatrixSession.UserId

variable {username id : String} {homeserver : Url}

theorem qualify_whole (whole : username.toList.head? = some '@') (homeserver : Url) :
    qualify username homeserver = validate username := if_pos whole

theorem whole_of_qualify (made : qualify username homeserver = .ok id) :
    validate id = .ok id ∧ id.toList.head? = some '@' := by
  have valid_self {text : String} (valid : validate text = .ok id) :
      text = id ∧ validate id = .ok id := by
    obtain ⟨rfl, -⟩ := validate_eq_ok_iff.mp valid
    exact ⟨rfl, valid⟩
  unfold qualify at made
  split at made
  · rename_i whole
    obtain ⟨rfl, valid⟩ := valid_self made
    exact ⟨valid, whole⟩
  · split at made
    · contradiction
    · obtain ⟨rfl, valid⟩ := valid_self made
      exact ⟨valid, by simp⟩

/-- An id that is made for a name starts with `@`, and on every homeserver it is its own id. A name that
    starts with `@` fares alike on all homeservers, in what is made of it and in the fault that is
    reported: what is made of it is the name itself, just if the name of a server follows its first
    colon. -/
theorem ids_stay_as_made (username : String) (homeserver homeserver' : Url) :
    (∀ id, qualify username homeserver = .ok id →
      id.toList.head? = some '@' ∧ qualify id homeserver' = .ok id) ∧
    (username.toList.head? = some '@' →
      qualify username homeserver = qualify username homeserver' ∧
      ∀ id, qualify username homeserver = .ok id ↔ id = username ∧ ∃ name server,
        Text.splitFirst? ':' username.toList = some (name, server) ∧ isServerName server = true) := by
  constructor
  · intro id made
    obtain ⟨valid, whole⟩ := whole_of_qualify made
    exact ⟨whole, (qualify_whole whole homeserver').trans valid⟩
  · intro whole
    rw [qualify_whole whole, qualify_whole whole]
    exact ⟨rfl, fun id => validate_eq_ok_iff⟩

def hostless : Url := ⟨"mailto", none, false, .plain "a@b", none, none⟩

/-- An id with two colons, made on a homeserver whose name reads as a port, is taken as it is without any
    host, and a name that is no id is refused in the same words. -/
theorem odd_id_stays_as_made :
    qualify "alice:evil.org" numbered = .ok "@alice:evil.org:+80" ∧
      qualify "alice:evil.org" hostless = .error (.noHost "mailto:a@b") ∧
      qualify "@alice:evil.org:+80" hostless = .ok "@alice:evil.org:+80" ∧
      qualify "@carol" numbered = .error (.missingColon "@carol") ∧
      qualify "@carol" hostless = .error (.missingColon "@carol") := by
  have made : qualify "alice:evil.org" numbered = .ok "@alice:evil.org:+80" := by decide
  have unmade : qualify "alice:evil.org" hostless = .error (.noHost "mailto:a@b") := by decide
  have again := (ids_stay_as_made "alice:evil.org" numbered hostless).1 _ made
  have refused : qualify "@carol" numbered = .error (.missingColon "@carol") := by decide
  have alike := ((ids_stay_as_made "@carol" numbered hostless).2 (by decide)).1
  exact ⟨made, unmade, again.2, refused, alike ▸ refused⟩

end MatrixSession.UserId
