import MatrixSession.Command
import MatrixSession.Proofs.Url.Queries

/-!
The steps that build a command on a base. A query pair is added behind those before it; any other step
sets one thing anew. So it matters which pairs come in which order and what each thing was set to last,
and not how the steps are mixed.
-/
namespace MatrixSession.Command

attribute [ext] Command

inductive Step where
  | json (body : Json.Value)
  | query (key value : String)
  | header (name value : String)
  | asPublic
  | bearer (token : String)

namespace Step

def apply (c : Command) : Step → Command
  | json body => c.withJson body
  | query key value => c.withQuery key value
  | header name value => c.withHeader name value
  | asPublic => c.asPublic
  | bearer token => c.withBearer token

def body? : Step → Option Json.Value
  | json body => some body
  | _ => none

def pair? : Step → Option (String × String)
  | query key value => some (key, value)
  | _ => none

def header? : Step → Option (String × String)
  | header name value => some (name.toLower, value)
  | bearer token => some ("authorization", "Bearer " ++ token)
  | _ => none

def value? (name : String) (step : Step) : Option String :=
  (step.header?.filter (·.1 = name)).map (·.2)

end Step

def follow (c : Command) (steps : List Step) : Command := steps.foldl Step.apply c

theorem follow_cons (c : Command) (step : Step) (steps : List Step) :
    c.follow (step :: steps) = (step.apply c).follow steps := rfl

section Sequences

variable (steps : List Step)

def pairs : List (String × String) := steps.filterMap Step.pair?

def lastBody? : Option Json.Value := (steps.filterMap Step.body?).getLast?

def lastValue? (name : String) : Option String := (steps.filterMap (Step.value? name)).getLast?

end Sequences

/-- The same pairs in the same order, and everything else set to the same last. -/
structure Agree (a b : List Step) : Prop where
  pairs : pairs a = pairs b
  body : lastBody? a = lastBody? b
  value : ∀ name, lastValue? a name = lastValue? b name
  unguarded : .asPublic ∈ a ↔ .asPublic ∈ b

variable {a b steps : List Step} {c : Command} {name : String}

section Single

variable (c : Command) (step : Step)

theorem body_apply : (step.apply c).body = step.body?.or c.body := by
  cases step <;> rfl

theorem header_apply (name : String) :
    (step.apply c).headers.find? name = (step.value? name).or (c.headers.find? name) := by
  have inserted (key value : String) : (c.headers.insert key value).find? name =
      (((some (key, value)).filter (·.1 = name)).map (·.2)).or (c.headers.find? name) := by
    rw [Dictionary.find?_insert]
    by_cases hit : key = name <;> simp [Option.filter, hit]
  cases step with
  | header key value => exact inserted key.toLower value
  | bearer token =>
    rw [Step.apply, headers_with_bearer]
    exact inserted "authorization" ("Bearer " ++ token)
  | _ => rfl

theorem guard_apply : (step.apply c).requiresAuth = true ↔
    step ≠ .asPublic ∧ c.requiresAuth = true := by
  cases step <;> simp [Step.apply, withJson, withQuery, withHeader, asPublic, withBearer]

theorem url_apply : (step.apply c).url =
    step.pair?.elim c.url fun pair => c.url.withQueryPair pair.1 pair.2 := by
  cases step <;> rfl

theorem method_apply : (step.apply c).method = c.method := by
  cases step <;> rfl

end Single

section Sequence

theorem follow_last {α : Type} (read : Command → Option α) (set? : Step → Option α)
    (each : ∀ (c : Command) (step : Step), read (step.apply c) = (set? step).or (read c))
    (c : Command) (steps : List Step) :
    read (c.follow steps) = (steps.filterMap set?).getLast?.or (read c) := by
  induction steps generalizing c with
  | nil => rfl
  | cons step steps ih =>
    rw [follow_cons, ih, each, List.filterMap_cons]
    cases set? step with
    | none => rw [Option.none_or]
    | some value =>
      rw [Option.some_or, List.getLast?_cons]
      cases (steps.filterMap set?).getLast? <;> rfl

theorem body_follow (c : Command) (steps : List Step) :
    (c.follow steps).body = (lastBody? steps).or c.body :=
  follow_last Command.body Step.body? body_apply c steps

theorem header_follow (c : Command) (steps : List Step) (name : String) :
    (c.follow steps).headers.find? name = (lastValue? steps name).or (c.headers.find? name) :=
  follow_last (fun c => c.headers.find? name) (Step.value? name)
    (fun c step => header_apply c step name) c steps

theorem guard_follow (c : Command) (steps : List Step) :
    (c.follow steps).requiresAuth = true ↔ .asPublic ∉ steps ∧ c.requiresAuth = true := by
  induction steps generalizing c with
  | nil => simp [follow]
  | cons step steps ih =>
    rw [follow_cons, ih, guard_apply, List.mem_cons]
    tauto

theorem url_follow (c : Command) (steps : List Step) :
    (c.follow steps).url = c.url.withQueryPairs (pairs steps) := by
  induction steps generalizing c with
  | nil => rfl
  | cons step steps ih =>
    rw [follow_cons, ih, url_apply, pairs, pairs, List.filterMap_cons]
    cases step.pair? <;> rfl

theorem method_follow (c : Command) (steps : List Step) : (c.follow steps).method = c.method := by
  induction steps generalizing c with
  | nil => rfl
  | cons step steps ih => rw [follow_cons, ih, method_apply]

theorem follow_eq_of_agree (agree : Agree a b) (c : Command) : c.follow a = c.follow b := by
  have headers : (c.follow a).headers = (c.follow b).headers := by
    apply Dictionary.ext_find?
    intro name
    rw [header_follow, header_follow, agree.value]
  have guarded : (c.follow a).requiresAuth = (c.follow b).requiresAuth := by
    rw [Bool.eq_iff_iff, guard_follow, guard_follow, agree.unguarded]
  have url : (c.follow a).url = (c.follow b).url := by rw [url_follow, url_follow, agree.pairs]
  have body : (c.follow a).body = (c.follow b).body := by rw [body_follow, body_follow, agree.body]
  have method : (c.follow a).method = (c.follow b).method := by rw [method_follow, method_follow]
  exact Command.ext method url body headers guarded

end Sequence

section Authorization

theorem bearer_follow {token : String} : (c.follow steps).bearer? = some token ↔
    (lastValue? steps "authorization").or (c.headers.find? "authorization") =
      some ("Bearer " ++ token) := by
  rw [bearer?, header_follow, Option.bind_eq_some_iff]
  simp [bearerToken?_eq_some_iff]

theorem agree_set_again {before between : List Step} {earlier later : Step} {old new : String}
    (set : earlier.header? = some (name, old)) (again : later.header? = some (name, new)) :
    Agree (before ++ earlier :: between ++ [later]) (before ++ between ++ [later]) := by
  have other : earlier.pair? = none ∧ earlier.body? = none ∧ earlier ≠ .asPublic := by
    cases earlier <;> simp_all [Step.header?, Step.pair?, Step.body?]
  obtain ⟨pair, body, guarded⟩ := other
  refine ⟨?_, ?_, fun key => ?_, ?_⟩
  · simp [pairs, pair]
  · simp [lastBody?, body]
  · by_cases hit : name = key
    · simp [lastValue?, Step.value?, again, hit, Option.filter]
    · simp [lastValue?, Step.value?, set, hit, Option.filter]
  · simp [Ne.symm guarded]

/-- Sequences that agree build the same command. Its bearer token is that of the authorization set
    last, and of one that was set before in any case nothing stays. Method, path and fragment are those
    of the base. -/
theorem steps_do_not_interfere (c : Command) :
    (∀ a b, Agree a b → c.follow a = c.follow b) ∧
    (∀ steps token, (c.follow steps).bearer? = some token ↔
      (lastValue? steps "authorization").or (c.headers.find? "authorization") =
        some ("Bearer " ++ token)) ∧
    (∀ before earlier between token, earlier.header?.map (·.1) = some "authorization" →
      c.follow (before ++ earlier :: between ++ [.bearer token]) =
          c.follow (before ++ between ++ [.bearer token]) ∧
        (c.follow (before ++ earlier :: between ++ [.bearer token])).bearer? = some token) ∧
    ∀ steps, (c.follow steps).method = c.method ∧ (c.follow steps).path = c.path ∧
      (c.follow steps).url.fragment = c.url.fragment := by
  refine ⟨fun a b agree => follow_eq_of_agree agree c, fun steps token => bearer_follow, ?_, ?_⟩
  · intro before earlier between token named
    obtain ⟨⟨name, old⟩, set, rfl⟩ := Option.map_eq_some_iff.mp named
    have again : (Step.bearer token).header? = some ("authorization", "Bearer " ++ token) := rfl
    refine ⟨follow_eq_of_agree (agree_set_again set again) c, bearer_follow.mpr ?_⟩
    simp [lastValue?, Step.value?, again, Option.filter]
  · intro steps
    have address := Url.withQueryPairs_eq c.url (pairs steps)
    rw [path, url_follow, address]
    exact ⟨method_follow c steps, rfl, rfl⟩

def sampleBase : Command :=
  ⟨"PUT", ⟨"https", some ⟨"", "", some (.domain "hs.example"), none⟩, false, .segments ["p"], some "q",
    some "f"⟩, none, .empty, true⟩

def mixed : List Step :=
  [.header "X-A" "0", .header "AUTHORIZATION" "Bearer stale", .query "k" "1", .json .null,
    .bearer "old", .asPublic, .header "x-a" "1", .query "k" "2", .json (.bool true),
    .header "Authorization" "Bearer new"]

def unmixed : List Step :=
  [.asPublic, .json (.bool true), .bearer "new", .header "X-a" "1", .query "k" "1", .query "k" "2"]

theorem mixed_agree : Agree mixed unmixed := by
  refine ⟨rfl, rfl, fun name => ?_, by simp [mixed, unmixed]⟩
  by_cases first : name = "x-a"
  · subst first
    decide +kernel
  by_cases second : name = "authorization"
  · subst second
    decide +kernel
  have lower : "X-A".toLower = "x-a" ∧ "x-a".toLower = "x-a" ∧ "X-a".toLower = "x-a" ∧
      "AUTHORIZATION".toLower = "authorization" ∧ "Authorization".toLower = "authorization" := by
    decide +kernel
  simp [mixed, unmixed, lastValue?, List.findSome?, Step.value?, Step.header?, Option.filter, lower,
    Ne.symm first, Ne.symm second]

theorem mixed_steps_do_not_interfere : Agree mixed unmixed ∧
    sampleBase.follow mixed = sampleBase.follow unmixed ∧
    (sampleBase.follow mixed).bearer? = some "new" ∧
    (Step.header "AUTHORIZATION" "Bearer old").header?.map (·.1) = some "authorization" ∧
    sampleBase.follow ([.query "k" "1"] ++ .header "AUTHORIZATION" "Bearer old" :: [.asPublic] ++
      [.bearer "new"]) = sampleBase.follow ([.query "k" "1"] ++ [.asPublic] ++ [.bearer "new"]) := by
  obtain ⟨same, read, again, -⟩ := steps_do_not_interfere sampleBase
  have named : (Step.header "AUTHORIZATION" "Bearer old").header?.map (·.1) =
    some "authorization" := by decide +kernel
  have last : (lastValue? mixed "authorization").or (sampleBase.headers.find? "authorization") =
    some ("Bearer " ++ "new") := by decide +kernel
  exact ⟨mixed_agree, same _ _ mixed_agree, (read _ _).mpr last, named, (again _ _ _ _ named).1⟩

end Authorization

end MatrixSession.Command
