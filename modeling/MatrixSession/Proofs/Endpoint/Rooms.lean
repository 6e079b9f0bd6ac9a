import MatrixSession.Endpoint
import MatrixSession.Proofs.Url.Segments
import MatrixSession.Url.Parser

/-!
Endpoints of a room. The room id stays one component of the path, between the fixed ones, just if it
is a whole segment; then no other endpoint or room has the same address. Dot segments, tabs and line
breaks are not kept.
-/
namespace MatrixSession.Endpoint

open Url (IsWhole IsEntered component withoutBreaks)

structure Route where
  front : List String
  room : String
  back : List String

def route? : Endpoint → Option Route
  | roomInfo room => some ⟨["_matrix", "client", "v1", "rooms"], room, ["hierarchy"]⟩
  | roomMembers room => some ⟨["_matrix", "client", "v3", "rooms"], room, ["joined_members"]⟩
  | roomTopic room _ => some ⟨["_matrix", "client", "v3", "rooms"], room, ["state", "m.room.topic"]⟩
  | invite room _ => some ⟨["_matrix", "client", "v3", "rooms"], room, ["invite"]⟩
  | _ => none

/-- What becomes of the front of a route when the room id is appended to it. -/
def Route.entered (r : Route) : List String :=
  if r.room = "." ∨ r.room = ".." then r.front
  else if withoutBreaks r.room.toList = ['.', '.'] then r.front.dropLast ++ [""]
  else if withoutBreaks r.room.toList = ['.'] then r.front ++ [""]
  else r.front ++ [component (withoutBreaks r.room.toList)]

variable {e e' : Endpoint} {r : Route} {base : Url} {c c' : Command} {list : List String}

theorem segments_of_route (route : e.route? = some r) : e.segments = r.front ++ r.room :: r.back := by
  cases e <;> cases route <;> rfl

theorem route_of_segments (route : e.route? = some r) (same : e'.segments = e.segments) :
    e'.route? = some r := by
  cases e <;> cases route <;> cases e' <;> simp_all [segments, route?]

theorem segments_named (e : Endpoint) : ∃ rest, e.segments = "_matrix" :: rest := by
  cases e <;> exact ⟨_, rfl⟩

theorem fixed_of_route (route : e.route? = some r) :
    ∃ v, r.front = ["_matrix", "client", v, "rooms"] ∧
      (∀ s ∈ r.front, IsWhole s ∧ component s.toList = s) ∧
      ∀ s ∈ r.back, IsWhole s ∧ component s.toList = s := by
  cases e <;> cases route <;> exact ⟨_, rfl, by dsimp only; decide, by dsimp only; decide⟩

theorem path_of_command (built : e.command base = .ok c) :
    ∃ list, base.path = .segments list := by
  obtain ⟨url, query, extended, -⟩ := url_of_command built
  unfold Url.withSegments? at extended
  split at extended
  · contradiction
  · exact ⟨_, ‹_›⟩

theorem map_fixed {list : List String} (fixed : ∀ s ∈ list, IsWhole s ∧ component s.toList = s) :
    list.map (component ·.toList) = list := by
  conv_rhs => rw [← List.map_id list]
  exact List.map_congr_left fun s mem => (fixed s mem).2

theorem push_room (web : base.IsWeb) (route : e.route? = some r) (top : List String) :
    ([r.room].filter fun s => s ≠ "." ∧ s ≠ "..").foldl (Url.pushSegment base.scheme)
      (top ++ r.front) = top ++ r.entered ∧ IsEntered (top ++ r.entered) := by
  obtain ⟨v, front, -⟩ := fixed_of_route route
  have entered : IsEntered (top ++ r.front) := by
    simp [IsEntered, front, List.append_eq_singleton_iff]
  by_cases dot : r.room = "." ∨ r.room = ".."
  · have passed : ([r.room].filter fun s => s ≠ "." ∧ s ≠ "..") = [] := by
      simpa [or_iff_not_imp_left] using dot
    rw [passed, Route.entered, if_pos dot]
    exact ⟨rfl, entered⟩
  · have kept : ([r.room].filter fun s => s ≠ "." ∧ s ≠ "..") = [r.room] := by
      simpa [not_or] using dot
    have last : (top ++ r.front).getLast? = some "rooms" := by simp [front]
    have below : Url.parent (top ++ r.front) = top ++ r.front.dropLast := by
      have free : Url.isFixed "rooms".toList = false := by decide
      simp only [Url.parent, last, free, Bool.false_eq_true, if_false]
      exact List.dropLast_append_of_ne_nil (by simp [front])
    rw [kept, List.foldl_cons, List.foldl_nil, Url.push_web web, Url.step_of_segment, entered.place,
      Route.entered, if_neg dot]
    split_ifs
    · rw [Url.Step.finish, below, List.append_assoc]
      exact ⟨rfl, by simp [IsEntered, front, List.append_eq_singleton_iff]⟩
    · exact ⟨List.append_assoc .., by rw [← List.append_assoc]; exact entered.append _⟩
    · exact ⟨List.append_assoc .., by rw [← List.append_assoc]; exact entered.append _⟩

theorem withSegments_route (web : base.IsWeb) (path : base.path = .segments list)
    (route : e.route? = some r) : base.withSegments? e.segments = some { base with
      path := .segments (Url.place (Url.withoutEmptyLast list) ++ (r.entered ++ r.back)) } := by
  obtain ⟨v, front, fixedFront, fixedBack⟩ := fixed_of_route route
  have wholeFront := fun s mem => (fixedFront s mem).1
  have wholeBack := fun s mem => (fixedBack s mem).1
  have pushedFront : r.front.foldl (Url.pushSegment base.scheme) (Url.withoutEmptyLast list) =
      Url.place (Url.withoutEmptyLast list) ++ r.front := by
    have whole := wholeFront
    rw [front] at whole
    have fixed := map_fixed fixedFront
    rw [front] at fixed ⊢
    rw [Url.push_named web whole (by decide), fixed]
  obtain ⟨pushed, entered⟩ := push_room web route (Url.place (Url.withoutEmptyLast list))
  have split : r.front ++ r.room :: r.back = r.front ++ [r.room] ++ r.back := by simp
  rw [segments_of_route route, Url.withSegments?, path, split, List.filter_append,
    List.filter_append, Url.filter_whole wholeFront, Url.filter_whole wholeBack]
  simp only [List.foldl_append, pushedFront, pushed, Url.push_wholes web wholeBack entered,
    map_fixed fixedBack, List.append_assoc]

theorem entered_of_whole (whole : IsWhole r.room) :
    r.entered = r.front ++ [component r.room.toList] := by
  obtain ⟨dots, dot⟩ := whole.dotless
  rw [Route.entered, if_neg (not_or.mpr ⟨whole.not_dot, whole.not_dots⟩), whole.unbroken,
    if_neg dots, if_neg dot]

theorem path_of_route (web : base.IsWeb) (route : e.route? = some r)
    (built : e.command base = .ok c) :
    c.path = base.stem ++ (Url.Path.segments (r.entered ++ r.back)).text := by
  obtain ⟨url, query, extended, same⟩ := url_of_command built
  obtain ⟨list, path⟩ := path_of_command built
  obtain rfl := Option.some.inj ((withSegments_route web path route).symm.trans extended)
  rw [Command.path, same, Url.stem, path]
  exact Url.path_append _ _

theorem slashless_fixed {list : List String}
    (fixed : ∀ s ∈ list, IsWhole s ∧ component s.toList = s) : ∀ s ∈ list, '/' ∉ s.toList := by
  intro s mem
  rw [← (fixed s mem).2]
  exact Url.component_closed _ '/' (by simp)

theorem slashless_entered (route : e.route? = some r) : ∀ s ∈ r.entered, '/' ∉ s.toList := by
  obtain ⟨-, -, fixedFront, -⟩ := fixed_of_route route
  have front := slashless_fixed fixedFront
  have empty : '/' ∉ "".toList := by decide
  rw [Route.entered]
  split_ifs
  · exact front
  · refine List.forall_mem_append.mpr ⟨fun s mem => ?_, List.forall_mem_singleton.mpr empty⟩
    exact front s (List.dropLast_subset _ mem)
  · exact List.forall_mem_append.mpr ⟨front, List.forall_mem_singleton.mpr empty⟩
  · refine List.forall_mem_append.mpr ⟨front, List.forall_mem_singleton.mpr ?_⟩
    exact Url.component_closed _ '/' (by simp)

theorem whole_of_entered (route : e.route? = some r) {name : String}
    (decodes : Percent.decode (Utf8.encode name) = Utf8.encode r.room)
    (one : r.entered = r.front ++ [name]) : IsWhole r.room := by
  obtain ⟨v, front, -⟩ := fixed_of_route route
  rw [Route.entered] at one
  split_ifs at one with dot up stay
  · exact absurd (congrArg List.length one) (by simp)
  · exact absurd (congrArg List.length one) (by simp [front])
  · obtain rfl : "" = name := by simpa using one
    have nothing : [] = r.room.toList := Utf8.encodeChars_injective decodes
    rw [← nothing] at stay
    exact absurd stay (by decide)
  · obtain rfl : component (withoutBreaks r.room.toList) = name := by simpa using one
    have unbroken := (Url.decode_component _).symm.trans decodes
    exact ⟨Utf8.encodeChars_injective unbroken, fun same => dot (.inl same),
      fun same => dot (.inr same)⟩

theorem segments_of_text (web : base.IsWeb) (built : e.command base = .ok c)
    (built' : e'.command base = .ok c') (whole : ∀ s ∈ e.segments, IsWhole s)
    (whole' : ∀ s ∈ e'.segments, IsWhole s) (same : c'.url.text = c.url.text) :
    e'.segments = e.segments := by
  obtain ⟨list, path⟩ := path_of_command built
  have address {e : Endpoint} {c : Command} (built : e.command base = .ok c)
      (whole : ∀ s ∈ e.segments, IsWhole s) : ∃ query, c.url = { base with
        path := .segments (Url.place (Url.withoutEmptyLast list) ++
          e.segments.map (component ·.toList)), query := query } := by
    obtain ⟨url, query, extended, same⟩ := url_of_command built
    obtain ⟨rest, named⟩ := e.segments_named
    rw [named] at extended whole ⊢
    have appended := Url.withSegments_whole web path whole (by decide)
    obtain rfl := Option.some.inj (appended.symm.trans extended)
    exact ⟨query, same⟩
  obtain ⟨query, address₁⟩ := address built whole
  obtain ⟨query', address₂⟩ := address built' whole'
  rw [address₁, address₂] at same
  exact Url.components_injective same

/-- The room id is one component of the path, which decodes to it, just if it is whole; and then no
    other endpoint or room has the same address. -/
theorem room_is_one_component (web : base.IsWeb) (route : e.route? = some r)
    (built : e.command base = .ok c) :
    c.path = base.stem ++ (Url.Path.segments (r.entered ++ r.back)).text ∧
    ((∃ name, '/' ∉ name.toList ∧ Percent.decode (Utf8.encode name) = Utf8.encode r.room ∧
        c.path = base.stem ++ (Url.Path.segments (r.front ++ name :: r.back)).text) ↔
      IsWhole r.room) ∧
    (IsWhole r.room → ∀ (e' : Endpoint) (c' : Command), e'.command base = .ok c' →
      (∀ s ∈ e'.segments, IsWhole s) → c'.url.text = c.url.text → e'.route? = some r) := by
  obtain ⟨-, -, fixedFront, fixedBack⟩ := fixed_of_route route
  have path := path_of_route web route built
  refine ⟨path, ⟨?_, fun whole => ?_⟩, fun whole e' c' built' whole' same => ?_⟩
  · rintro ⟨name, slashless, decodes, path'⟩
    refine whole_of_entered route decodes ?_
    have behind := (String.append_right_inj _).mp (path.symm.trans path')
    have segments := Url.path_injective
      (List.forall_mem_append.mpr ⟨slashless_entered route, slashless_fixed fixedBack⟩)
      (List.forall_mem_append.mpr ⟨slashless_fixed fixedFront,
        List.forall_mem_cons.mpr ⟨slashless, slashless_fixed fixedBack⟩⟩) behind
    exact List.append_cancel_right (segments.trans (List.append_assoc _ [name] r.back).symm)
  · refine ⟨component r.room.toList, Url.component_closed _ '/' (by simp),
      Url.decode_component _, ?_⟩
    rw [path, entered_of_whole whole, List.append_assoc]
    rfl
  · refine route_of_segments route (segments_of_text web built built' ?_ whole' same)
    rw [segments_of_route route]
    refine List.forall_mem_append.mpr ⟨fun s mem => (fixedFront s mem).1, ?_⟩
    exact List.forall_mem_cons.mpr ⟨whole, fun s mem => (fixedBack s mem).1⟩

def prefixed : Url :=
  ⟨"https", some ⟨"", "", some (.domain "hs.example"), none⟩, false, .segments ["p", ""], some "q",
    none⟩

theorem odd_room_is_one_component :
    prefixed.IsWeb ∧ (roomTopic "!a/b%\\é" "t").route? =
      some ⟨["_matrix", "client", "v3", "rooms"], "!a/b%\\é", ["state", "m.room.topic"]⟩ ∧
    ∃ c, (roomTopic "!a/b%\\é" "t").command prefixed = .ok c ∧
      c.path = "/p/_matrix/client/v3/rooms/!a%2Fb%25%5C%C3%A9/state/m.room.topic" ∧
      ∃ name, '/' ∉ name.toList ∧ Percent.decode (Utf8.encode name) = Utf8.encode "!a/b%\\é" ∧
        c.path = prefixed.stem ++ (Url.Path.segments (["_matrix", "client", "v3", "rooms"] ++
          name :: ["state", "m.room.topic"])).text := by
  have web : prefixed.IsWeb := .inr rfl
  have whole : IsWhole "!a/b%\\é" := by decide
  have route : (roomTopic "!a/b%\\é" "t").route? =
    some ⟨["_matrix", "client", "v3", "rooms"], "!a/b%\\é", ["state", "m.room.topic"]⟩ := rfl
  refine ⟨web, route, _, rfl, ?_, (room_is_one_component web route rfl).2.1.mpr whole⟩
  decide +kernel

/-- Two dots are passed over, and so the next fixed name stands where the room id should; and a tab
    is dropped, so two room ids have the same address. -/
theorem room_ids_can_be_lost :
    ∃ base, Url.parse "https://hs.example/p/?q" = .ok base ∧
      (∃ c, (roomMembers "..").command base = .ok c ∧
        c.path = "/p/_matrix/client/v3/rooms/joined_members") ∧
      ∃ c c', (roomMembers "a\tb").command base = .ok c ∧ (roomMembers "ab").command base = .ok c' ∧
        c.url.text = c'.url.text := by
  have parsed : Url.parse "https://hs.example/p/?q" = .ok prefixed := by decide +kernel
  refine ⟨prefixed, parsed, ⟨_, rfl, ?_⟩, _, _, rfl, rfl, ?_⟩ <;> decide +kernel

end MatrixSession.Endpoint
