import Dui.TapRoutes

/-! Taps. Between events a pointer has a route exactly if it has an arena, of which the route is
the only member; an up activates what was under the down and is under the up, as far as it
is still there. -/
namespace Dui
open Effect Transition

/-- What of the owner a route is about. -/
structure TapOwner.Stored (owner : TapOwner) (downs : PointerId → List RenderId) : Prop where
  idle : owner.gestureArena.resolving = ∅
  absent : ∀ pointer, owner.pointerTapRoutes pointer = none →
    owner.gestureArena.arenas pointer = none ∧ downs pointer = []
  present : ∀ pointer tap, owner.pointerTapRoutes pointer = some tap →
    owner.gestureArena.arenas pointer = some { members := [tap] } ∧
      owner.taps[tap]? = some { pointerId := pointer, route := downs pointer } ∧
      downs pointer ≠ []

/-- The routes and the arena are the same. -/
structure TapOwner.SameRoutes (owner next : TapOwner) : Prop where
  gestureArena : next.gestureArena = owner.gestureArena
  pointerTapRoutes : next.pointerTapRoutes = owner.pointerTapRoutes
  taps : next.taps = owner.taps

/-- What an up comes to: of the objects to be activated these were reached, in order, up to one
that stops the propagation, and those that were still there were activated. -/
structure Taps (route : List RenderId) (reached : List Reached) (activated : List RenderId)
    (returned : Prop) : Prop where
  order : reached.map (·.id) <+: route
  exact : activated = (reached.filter (·.object.isSome)).map (·.id)
  onward : ∀ one ∈ reached.dropLast, one.object.any (·.kind.stopsPropagation) = false
  ended : returned → reached.map (·.id) = route ∨
    ∃ last, reached.getLast? = some last ∧ last.object.any (·.kind.stopsPropagation) = true

namespace Taps
variable {route : List RenderId} {reached : List Reached} {activated : List RenderId}
  {returned : Prop} {id : RenderId}

/-- Nothing is reached. -/
theorem none_reached (through : returned → route = []) : Taps route [] [] returned :=
  ⟨List.nil_prefix, rfl, fun _ listed => absurd listed List.not_mem_nil,
    fun ended => .inl (through ended).symm⟩

/-- The first object is activated, and nothing after it. -/
theorem last_activated {object : RenderObject}
    (ended : returned → object.kind.stopsPropagation = true) :
    Taps (id :: route) [⟨id, some object⟩] [id] returned :=
  ⟨by simp, rfl, fun _ listed => absurd listed List.not_mem_nil,
    fun done => .inr ⟨_, rfl, ended done⟩⟩

/-- The first object is reached, and then the others. -/
theorem cons {object : Option RenderObject} {first : List RenderId}
    (taps : Taps route reached activated returned)
    (onward : object.any (·.kind.stopsPropagation) = false)
    (exact : first = if object.isSome then id :: activated else activated) :
    Taps (id :: route) (⟨id, object⟩ :: reached) first returned := by
  refine ⟨?_, ?_, ?_, fun done => ?_⟩
  · rw [List.map_cons]
    exact List.prefix_cons_inj id |>.mpr taps.order
  · rw [exact, taps.exact, List.filter_cons]
    split <;> rfl
  · intro one listed
    cases reached with
    | nil => cases listed
    | cons second reached =>
      rw [List.dropLast_cons_cons] at listed
      obtain rfl | later := List.mem_cons.mp listed
      · exact onward
      · exact taps.onward one later
  · obtain all | ⟨last, final, stops⟩ := taps.ended done
    · exact .inl (congrArg (id :: ·) all)
    · refine .inr ⟨last, ?_, stops⟩
      cases reached with
      | nil => cases final
      | cons second reached => rwa [List.getLast?_cons_cons]

end Taps

/-! ### The routes and the arena -/

namespace TapOwner
variable {owner next : TapOwner} {downs : PointerId → List RenderId} {pointer : PointerId}

theorem SameRoutes.refl : owner.SameRoutes owner := ⟨rfl, rfl, rfl⟩

theorem Stored.same (stored : owner.Stored downs) (same : owner.SameRoutes next) :
    next.Stored downs := by
  obtain ⟨arena, routes, taps⟩ := same
  refine ⟨?_, ?_, ?_⟩
  · rw [arena]
    exact stored.idle
  · rw [arena, routes]
    exact stored.absent
  · rw [arena, routes, taps]
    exact stored.present

/-- The arena without that of a pointer. -/
def without (owner : TapOwner) (pointer : PointerId) : GestureArena Nat :=
  owner.gestureArena.put pointer none

/-- The route of a pointer is gone, and its arena is; those of the other pointers are as they
were. -/
theorem Stored.cleared (stored : owner.Stored downs)
    (arena : next.gestureArena = owner.without pointer)
    (routes : next.pointerTapRoutes = Function.update owner.pointerTapRoutes pointer none)
    (taps : ∀ tap, owner.pointerTapRoutes pointer ≠ some tap → next.taps[tap]? = owner.taps[tap]?) :
    next.Stored (Function.update downs pointer []) := by
  refine ⟨?_, fun other none => ?_, fun other tap some => ?_⟩
  · rw [arena]
    exact stored.idle
  · rw [arena]
    by_cases here : other = pointer
    · subst here
      simp [without, GestureArena.put]
    · rw [routes, Function.update_of_ne here] at none
      simpa [without, GestureArena.put, here] using stored.absent other none
  · by_cases here : other = pointer
    · rw [routes, here, Function.update_self] at some
      cases some
    · rw [routes, Function.update_of_ne here] at some
      obtain ⟨held, made, down⟩ := stored.present other tap some
      have apart : owner.pointerTapRoutes pointer ≠ .some tap := by
        intro same
        obtain ⟨_, also, _⟩ := stored.present pointer tap same
        cases made.symm.trans also
        exact here rfl
      rw [arena, taps tap apart]
      simpa [without, GestureArena.put, here] using ⟨held, made, down⟩

/-- A route that is stored is told of in place of no other. -/
theorem told_apart {found : Option Nat} {tap other : Nat} (route : found = some tap)
    (apart : found ≠ some other) (tell : PointerTapRoute → PointerTapRoute)
    (taps : List PointerTapRoute) : (taps.modify tap tell)[other]? = taps[other]? := by
  have differs : tap ≠ other := fun same => apart (same ▸ route)
  exact List.getElem?_modify_ne tell taps differs

/-- A cancellation clears what is stored for the pointer. -/
theorem Stored.cancel (stored : owner.Stored downs) :
    ((owner.forgetRoute pointer).resolve (owner.gestureArena.cancel pointer)).Stored
      (Function.update downs pointer []) := by
  have calm : pointer ∉ owner.gestureArena.resolving := by simp [stored.idle]
  cases route : owner.pointerTapRoutes pointer with
  | none =>
    obtain ⟨missing, _⟩ := stored.absent pointer route
    have same : owner.gestureArena.cancel pointer = (owner.gestureArena, none) := by
      rw [GestureArena.cancel, if_neg calm, missing]
    rw [same]
    refine stored.cleared ?_ rfl fun _ _ => rfl
    simp [without, GestureArena.put, resolve, ← missing]
  | some tap =>
    obtain ⟨held, _, _⟩ := stored.present pointer tap route
    have same : owner.gestureArena.cancel pointer = (owner.without pointer,
        some { pointer, verdicts := [(tap, .reject)] }) := by
      rw [GestureArena.cancel, if_neg calm, held]
      rfl
    rw [same]
    refine stored.cleared rfl rfl fun other apart => ?_
    exact told_apart route apart _ owner.taps

/-- A route that is rejected is gone, and not accepted. -/
theorem Stored.reject (stored : owner.Stored downs) {tap : Nat}
    (route : owner.pointerTapRoutes pointer = some tap) :
    ((owner.forgetRoute pointer).resolve (owner.gestureArena.reject pointer tap)).Stored
        (Function.update downs pointer []) ∧
      ((owner.forgetRoute pointer).resolve
        (owner.gestureArena.reject pointer tap)).taps[tap]?.any (·.accepted) = false := by
  have calm : pointer ∉ owner.gestureArena.resolving := by simp [stored.idle]
  obtain ⟨held, made, _⟩ := stored.present pointer tap route
  have same : owner.gestureArena.reject pointer tap = (owner.without pointer,
      some { pointer, verdicts := [(tap, .reject)] }) := by
    rw [GestureArena.reject, if_neg calm, held]
    simp [without]
  rw [same]
  refine ⟨stored.cleared rfl rfl fun other apart => ?_, ?_⟩
  · exact told_apart route apart _ owner.taps
  · simp [resolve, forgetRoute, made, PointerTapRoute.tell,
      PointerTapRoute.rejectGesture]

/-- A route that is accepted when its arena closes is gone, and accepted. -/
theorem Stored.accept (stored : owner.Stored downs) {tap : Nat}
    (route : owner.pointerTapRoutes pointer = some tap) :
    let first := (owner.forgetRoute pointer).resolve (owner.gestureArena.accept pointer tap)
    let last := first.resolve (first.gestureArena.close pointer)
    last.Stored (Function.update downs pointer []) ∧ last.taps[tap]?.any (·.accepted) = true := by
  intro first last
  have calm : pointer ∉ owner.gestureArena.resolving := by simp [stored.idle]
  obtain ⟨held, made, _⟩ := stored.present pointer tap route
  have claimed : owner.gestureArena.accept pointer tap =
      (owner.gestureArena.put pointer (some { members := [tap], eagerWinner := some tap }),
        none) := by
    rw [GestureArena.accept, if_neg calm, held]
    simp
  have closed : first.gestureArena.close pointer = (owner.without pointer,
      some { pointer, verdicts := [(tap, .accept)] }) := by
    have arena : first.gestureArena = owner.gestureArena.put pointer
        (some { members := [tap], eagerWinner := some tap }) := by
      simp [first, resolve, claimed]
    rw [arena, GestureArena.close]
    simp [GestureArena.put, calm, GestureArena.resolveWinner, without]
  have taps : first.taps = owner.taps := by simp [first, resolve, claimed, forgetRoute]
  have routes : first.pointerTapRoutes = Function.update owner.pointerTapRoutes pointer none := rfl
  refine ⟨stored.cleared (by simp [last, resolve, closed]) routes fun other apart => ?_, ?_⟩
  · have told : last.taps = first.taps.modify tap (·.tell pointer .accept) := by
      simp [last, resolve, closed]
    rw [told, taps]
    exact told_apart route apart _ owner.taps
  · simp [last, resolve, closed, taps, made, PointerTapRoute.tell,
      PointerTapRoute.acceptGesture]

/-- A new route is the only member of a new arena. -/
theorem Stored.store (stored : owner.Stored downs) {route : List RenderId} (filled : route ≠ [])
    (free : owner.pointerTapRoutes pointer = none) : ∃ gestureArena,
    (owner.storeRoute pointer route).gestureArena.add pointer (some owner.taps.length) =
        .ok gestureArena ∧
      { owner.storeRoute pointer route with gestureArena }.Stored
        (Function.update downs pointer route) := by
  have calm : pointer ∉ owner.gestureArena.resolving := by simp [stored.idle]
  obtain ⟨missing, _⟩ := stored.absent pointer free
  refine ⟨owner.gestureArena.put pointer (some { members := [owner.taps.length] }), ?_,
    stored.idle, fun other none => ?_, fun other tap found => ?_⟩
  · change owner.gestureArena.add pointer (some owner.taps.length) = _
    simp [GestureArena.add, calm, missing]
  · have here : other ≠ pointer := by
      rintro rfl
      simp [storeRoute, free] at none
    simp only [storeRoute, Function.update_of_ne here] at none
    simpa [GestureArena.put, here] using stored.absent other none
  · by_cases here : other = pointer
    · subst here
      simp only [storeRoute, Function.update_self, free, Option.none_or, Option.some.injEq] at found
      subst found
      simp [GestureArena.put, storeRoute, filled]
    · simp only [storeRoute, Function.update_of_ne here] at found
      obtain ⟨held, made, down⟩ := stored.present other tap found
      have early : tap < owner.taps.length := (List.getElem?_eq_some_iff.mp made).1
      simp [GestureArena.put, storeRoute, here, held, List.getElem?_append_left early, made, down]

end TapOwner

/-! ### Dispatch -/

section Dispatch
variable {owner next : TapOwner} {downs : PointerId → List RenderId} {pointer : PointerId}
  {path : HitTestResult} {outcome : Except Failure Unit}

/-- What code of the application leaves alone. -/
theorem interlude_ends (ran : interlude owner = some (outcome, next)) :
    ∃ turn rest, owner.interludes = turn :: rest ∧
      next = { owner with tree := turn.tree, alive := turn.alive, interludes := rest } ∧
      outcome = turn.failure.elim (.ok ()) .error := by
  rw [interlude, Run.read_ends_iff] at ran
  cases found : owner.interludes with
  | nil =>
    rw [found] at ran
    cases ran
  | cons turn rest =>
    obtain ⟨tree, alive, failure⟩ := turn
    rw [found] at ran
    cases failure with
    | none =>
      cases ran
      exact ⟨_, rest, rfl, rfl, rfl⟩
    | some failure =>
      cases ran
      exact ⟨_, rest, rfl, rfl, rfl⟩

/-- An activation counts whether or not it throws. -/
theorem activate_ends {id : RenderId} {object : RenderObject} {result : Except Failure Bool}
    (ran : activate id object owner = some (result, next)) : owner.SameRoutes next ∧
      next.reached = owner.reached ∧ next.activated = owner.activated ++ [id] ∧
      ∀ stops, result = .ok stops → stops = object.kind.stopsPropagation := by
  rw [activate, Run.change_ends_iff] at ran
  split at ran
  · obtain ⟨_, middle, turned, rest⟩ | ⟨failure, thrown, rfl⟩ := Run.bind_ends_iff.mp ran
    · obtain ⟨turn, left, _, rfl, _⟩ := interlude_ends turned
      cases rest
      exact ⟨⟨rfl, rfl, rfl⟩, rfl, rfl, fun stops same => (Except.ok.inj same).symm⟩
    · obtain ⟨turn, left, _, rfl, _⟩ := interlude_ends thrown
      exact ⟨⟨rfl, rfl, rfl⟩, rfl, rfl, fun stops same => by cases same⟩
  · cases ran
    exact ⟨⟨rfl, rfl, rfl⟩, rfl, rfl, fun stops same => (Except.ok.inj same).symm⟩

/-- The objects of a route are reached one after the other, by induction on them. -/
theorem activate_route_taps (route : List RenderId) : ∀ (owner next : TapOwner) outcome,
    activateRoute route owner = some (outcome, next) → ∃ reached activated,
      owner.SameRoutes next ∧ next.reached = owner.reached ++ reached ∧
      next.activated = owner.activated ++ activated ∧
      Taps route reached activated (outcome = .ok () ∧ next.alive = true) := by
  induction route with
  | nil =>
    intro owner next outcome ran
    cases ran
    exact ⟨[], [], .refl, by simp, by simp, .none_reached fun _ => rfl⟩
  | cons id rest ih =>
    intro owner next outcome ran
    rw [activateRoute, Run.read_ends_iff] at ran
    split at ran
    · rename_i dead
      cases ran
      refine ⟨[], [], .refl, by simp, by simp, .none_reached fun alive => ?_⟩
      simp [alive.2] at dead
    · rw [Run.read_ends_iff, Run.change_ends_iff] at ran
      cases found : owner.tree.objects id with
      | none =>
        rw [found] at ran
        obtain ⟨reached, activated, same, meets, tells, taps⟩ := ih _ next outcome ran
        refine ⟨⟨id, none⟩ :: reached, activated, ⟨same.1, same.2, same.3⟩, ?_, tells,
          taps.cons rfl rfl⟩
        rw [meets, List.append_assoc, List.singleton_append]
      | some object =>
        rw [found] at ran
        obtain ⟨stops, middle, turned, rest⟩ | ⟨failure, thrown, rfl⟩ := Run.bind_ends_iff.mp ran
        · obtain ⟨same, meets, tells, stop⟩ := activate_ends turned
          rw [stop stops rfl, Run.read_ends_iff] at rest
          split at rest
          · rename_i dead
            cases rest
            refine ⟨[⟨id, some object⟩], [id], ⟨same.1, same.2, same.3⟩, meets, tells,
              .last_activated fun alive => ?_⟩
            simp [alive.2] at dead
          · split at rest
            · rename_i halts
              cases rest
              exact ⟨[⟨id, some object⟩], [id], ⟨same.1, same.2, same.3⟩, meets, tells,
                .last_activated fun _ => halts⟩
            · rename_i onward
              obtain ⟨reached, activated, same', meets', tells', taps⟩ := ih _ next outcome rest
              refine ⟨⟨id, some object⟩ :: reached, id :: activated, ⟨same'.1.trans same.1,
                same'.2.trans same.2, same'.3.trans same.3⟩, ?_, ?_,
                taps.cons (by simpa using onward) rfl⟩
              · rw [meets', meets, List.append_assoc, List.singleton_append]
              · rw [tells', tells, List.append_assoc, List.singleton_append]
        · obtain ⟨same, meets, tells, _⟩ := activate_ends thrown
          exact ⟨[⟨id, some object⟩], [id], ⟨same.1, same.2, same.3⟩, meets, tells,
            .last_activated fun returned => nomatch returned.1⟩

theorem dispatch_cancel_ends (stored : owner.Stored downs)
    (ran : dispatchCancel pointer owner = some (outcome, next)) :
    next.Stored (Function.update downs pointer []) ∧ next.reached = owner.reached ∧
      next.activated = owner.activated := by
  cases ran
  exact ⟨stored.cancel, rfl, rfl⟩

theorem store_tap_ends {first : TapOwner} (stored : first.Stored downs)
    (free : first.pointerTapRoutes pointer = none) (tree : first.tree = owner.tree)
    (reached : first.reached = owner.reached) (activated : first.activated = owner.activated)
    (ran : storeTap pointer path first = some (outcome, next)) :
    next.Stored (Function.update downs pointer (owner.tree.activatable path)) ∧
      next.reached = owner.reached ∧ next.activated = owner.activated := by
  rw [storeTap, Run.read_ends_iff, tree] at ran
  split at ran
  · rename_i nothing
    cases ran
    rw [List.isEmpty_iff.mp nothing]
    obtain ⟨_, down⟩ := stored.absent pointer free
    have same : Function.update downs pointer [] = downs := by simp [← down]
    rw [same]
    exact ⟨stored, reached, activated⟩
  · rename_i something
    rw [Run.read_ends_iff, Run.change_ends_iff, Run.read_ends_iff] at ran
    obtain ⟨gestureArena, added, stored'⟩ :=
      stored.store (fun none => something (List.isEmpty_iff.mpr none)) free
    rw [added] at ran
    cases ran
    exact ⟨stored', reached, activated⟩

/-- A down stores what can be activated, in place of what was stored. -/
theorem dispatch_down_ends (stored : owner.Stored downs)
    (ran : dispatchDown pointer path owner = some (outcome, next)) :
    next.Stored (Function.update downs pointer (owner.tree.activatable path)) ∧
      next.reached = owner.reached ∧ next.activated = owner.activated := by
  rw [dispatchDown, Run.read_ends_iff] at ran
  split at ran
  · have cleared := store_tap_ends
      (stored.cancel : TapOwner.Stored _ (Function.update downs pointer []))
      (by simp [TapOwner.resolve, TapOwner.forgetRoute]) rfl rfl rfl ran
    rwa [Function.update_idem] at cleared
  · rename_i unknown
    exact store_tap_ends stored (by simpa using unknown) rfl rfl rfl ran

/-- An up clears what is stored, and activates what can still be activated of it. -/
theorem dispatch_up_ends (stored : owner.Stored downs) (unreached : owner.reached = [])
    (inactive : owner.activated = []) (ran : dispatchUp pointer path owner = some (outcome, next)) :
    next.Stored (Function.update downs pointer []) ∧
      Taps ((downs pointer).filter (· ∈ owner.tree.activatable path)) next.reached next.activated
        (outcome = .ok () ∧ next.alive = true) := by
  rw [dispatchUp, Run.read_ends_iff, Run.change_ends_iff] at ran
  cases route : owner.pointerTapRoutes pointer with
  | none =>
    rw [route] at ran
    cases ran
    refine ⟨stored.cancel, ?_⟩
    rw [(stored.absent pointer route).2]
    change Taps [] owner.reached owner.activated _
    rw [unreached, inactive]
    exact .none_reached fun _ => rfl
  | some tap =>
    obtain ⟨_, made, _⟩ := stored.present pointer tap route
    rw [route] at ran
    dsimp only at ran
    rw [Run.read_ends_iff, Run.read_ends_iff] at ran
    have chosen : ((owner.forgetRoute pointer).taps[tap]?.elim [] (·.route)).filter
        ((owner.forgetRoute pointer).tree.activatable path).contains =
          (downs pointer).filter (· ∈ owner.tree.activatable path) := by
      change ((owner.taps[tap]?.elim [] (·.route)).filter _) = _
      rw [made]
      exact List.filter_congr fun id _ => by simp [TapOwner.forgetRoute]
    have arena : (owner.forgetRoute pointer).gestureArena = owner.gestureArena := rfl
    rw [chosen] at ran
    split at ran
    · rename_i nothing
      obtain ⟨cleared, refused⟩ := stored.reject route
      rw [Run.change_ends_iff, arena, Run.read_ends_iff, if_neg (by simpa using refused)] at ran
      cases ran
      refine ⟨cleared, ?_⟩
      rw [List.isEmpty_iff.mp nothing]
      change Taps [] owner.reached owner.activated _
      rw [unreached, inactive]
      exact .none_reached fun _ => rfl
    · obtain ⟨cleared, accepted⟩ := stored.accept route
      rw [Run.change_ends_iff, Run.change_ends_iff, arena, Run.read_ends_iff,
        if_pos accepted] at ran
      obtain ⟨reached, activated, same, meets, tells, taps⟩ :=
        activate_route_taps _ _ next outcome ran
      refine ⟨cleared.same same, ?_⟩
      change next.reached = owner.reached ++ reached at meets
      change next.activated = owner.activated ++ activated at tells
      rw [unreached, List.nil_append] at meets
      rw [inactive, List.nil_append] at tells
      rwa [meets, tells]

/-- What comes before the switch: an event that is not canceled needs a frame that returns. -/
theorem hit_path_ends (run : TapRun) {event : PointerEvent} {interludes : List Interlude}
    {result : Except Failure HitTestResult} (ran : hitPathOf event owner = some (result, next))
    (same : run.owner.SameRoutes owner) (viewport : owner.hasViewport = run.owner.hasViewport)
    (turns : owner.interludes = interludes) :
    run.owner.SameRoutes next ∧ next.reached = owner.reached ∧ next.activated = owner.activated ∧
      (event.phase = .cancel ∧ result = .ok [] ∧ run.framed event interludes = none ∨
        event.phase ≠ .cancel ∧ run.framed event interludes = none ∧
          (∃ failure, result = .error failure) ∨
        event.phase ≠ .cancel ∧ run.framed event interludes = some next.tree ∧
          ∃ path, result = .ok path ∧ next.tree.pathUnder event = some path) := by
  rw [hitPathOf] at ran
  split at ran
  · rename_i canceled
    cases ran
    refine ⟨same, rfl, rfl, .inl ⟨canceled, rfl, ?_⟩⟩
    unfold TapRun.framed
    split <;> simp [canceled]
  · rename_i other
    rw [Run.read_ends_iff] at ran
    split at ran
    · rename_i unframed
      cases ran
      refine ⟨same, rfl, rfl, .inr (.inl ⟨other, ?_, _, rfl⟩)⟩
      rw [viewport] at unframed
      unfold TapRun.framed
      split
      · rw [if_pos (.inr (by simpa using unframed))]
      · rfl
    · rename_i ready
      have ready : run.owner.hasViewport = true := by
        rw [viewport] at ready
        simpa using ready
      obtain ⟨_, middle, turned, rest⟩ | ⟨failure, thrown, rfl⟩ := Run.bind_ends_iff.mp ran
      · obtain ⟨⟨tree, alive, failure⟩, left, found, rfl, ended⟩ := interlude_ends turned
        rw [turns] at found
        cases failure with
        | some failure => cases ended
        | none =>
          have framed : run.framed event interludes = some tree := by
            simp [TapRun.framed, found, other, ready]
          rw [Run.read_ends_iff] at rest
          split at rest
          · cases rest
          · rw [Run.read_ends_iff] at rest
            cases under : tree.pathUnder event with
            | none =>
              rw [under] at rest
              cases rest
            | some path =>
              rw [under] at rest
              cases rest
              exact ⟨⟨same.1, same.2, same.3⟩, rfl, rfl,
                .inr (.inr ⟨other, framed, path, rfl, under⟩)⟩
      · obtain ⟨⟨tree, alive, failure⟩, left, found, rfl, ended⟩ := interlude_ends thrown
        rw [turns] at found
        cases failure with
        | none => cases ended
        | some failure =>
          exact ⟨⟨same.1, same.2, same.3⟩, rfl, rfl,
            .inr (.inl ⟨other, by simp [TapRun.framed, found], _, rfl⟩)⟩

/-- What a dispatch comes to. -/
structure TapRun.Dispatched (run : TapRun) (event : PointerEvent) (interludes : List Interlude)
    (outcome : Except Failure Unit) (next : TapOwner) : Prop where
  stored : next.Stored (run.downsAfter event interludes)
  up : ∀ tree, event.phase = .up → run.framed event interludes = some tree →
    Taps ((run.downs event.pointer).filter (· ∈ TapRun.targets event tree)) next.reached
      next.activated (outcome = .ok () ∧ next.alive = true)
  quiet : event.phase ≠ .up ∨ run.framed event interludes = none → next.activated = []
  refused : event.phase ≠ .cancel → run.framed event interludes = none → outcome ≠ .ok ()

theorem dispatch_ends {run : TapRun} {event : PointerEvent} {interludes : List Interlude}
    (stored : run.owner.Stored run.downs)
    (ran : dispatchPointer event { run.owner with interludes, reached := [], activated := [] } =
      some (outcome, next)) : run.Dispatched event interludes outcome next := by
  obtain ⟨path, middle, tested, rest⟩ | ⟨failure, thrown, rfl⟩ := Run.bind_ends_iff.mp ran
  · obtain ⟨same, unreached, inactive, canceled | ⟨_, _, _, thrown⟩ | framed⟩ :=
      hit_path_ends run tested ⟨rfl, rfl, rfl⟩ rfl rfl
    · obtain ⟨phase, _, framed⟩ := canceled
      rw [phase] at rest
      obtain ⟨cleared, _, quiet⟩ := dispatch_cancel_ends (stored.same same) rest
      refine ⟨?_, fun tree up => ?_, fun _ => quiet.trans inactive, fun other => ?_⟩
      · simpa [TapRun.downsAfter, phase] using cleared
      · cases phase.symm.trans up
      · exact absurd phase other
    · cases thrown
    · obtain ⟨other, framed, _, same', under⟩ := framed
      cases same'
      have targets : TapRun.targets event middle.tree = middle.tree.activatable path := by
        simp [TapRun.targets, under]
      have refused : run.framed event interludes = none → outcome ≠ .ok () := by
        simp [framed]
      cases phase : event.phase with
      | down =>
        rw [phase] at rest
        obtain ⟨kept, _, quiet⟩ := dispatch_down_ends (stored.same same) rest
        refine ⟨?_, fun _ up => ?_, fun _ => quiet.trans inactive, fun _ => refused⟩
        · simpa [TapRun.downsAfter, phase, framed, targets] using kept
        · cases phase.symm.trans up
      | up =>
        rw [phase] at rest
        obtain ⟨cleared, taps⟩ := dispatch_up_ends (stored.same same) unreached inactive rest
        refine ⟨?_, fun tree _ here => ?_, fun quiet => ?_, fun _ => refused⟩
        · simpa [TapRun.downsAfter, phase, framed] using cleared
        · cases framed.symm.trans here
          rwa [targets]
        · simp [framed, phase] at quiet
      | cancel => exact absurd phase other
      | move =>
        rw [phase] at rest
        cases rest
        refine ⟨?_, fun _ up => ?_, fun _ => inactive, fun _ => refused⟩
        · simpa [TapRun.downsAfter, phase] using stored.same same
        · cases phase.symm.trans up
      | unknown raw =>
        rw [phase] at rest
        cases rest
        refine ⟨?_, fun _ up => ?_, fun _ => inactive, fun _ => refused⟩
        · simpa [TapRun.downsAfter, phase] using stored.same same
        · cases phase.symm.trans up
  · obtain ⟨same, unreached, inactive, ⟨_, none, _⟩ | ⟨other, framed, _⟩ | ⟨_, _, _, none, _⟩⟩ :=
      hit_path_ends run thrown ⟨rfl, rfl, rfl⟩ rfl rfl
    · cases none
    · refine ⟨?_, fun tree _ here => ?_, fun _ => inactive, fun _ _ => by simp⟩
      · have downs : run.downsAfter event interludes = run.downs := by
          unfold TapRun.downsAfter
          rw [framed]
          cases phase : event.phase with
          | cancel => exact absurd phase other
          | _ => rfl
        rw [downs]
        exact stored.same same
      · cases framed.symm.trans here
    · cases none

end Dispatch

theorem stored_initially : TapOwner.Stored {} fun _ => [] :=
  ⟨rfl, fun _ _ => ⟨rfl, rfl⟩, fun _ _ stored => by cases stored⟩

/-- Whatever is dispatched and however the tree changes, what is stored stays in order. -/
theorem stored_reached {run : TapRun} (reached : Reachable tapMachine run) :
    run.owner.Stored run.downs := by
  refine Reaches.invariant (fun run : TapRun => run.owner.Stored run.downs) ?_ ?_ reached
  · rintro _ rfl
    exact stored_initially
  · intro run action next stored _ stepped
    cases action with
    | change tree hasViewport =>
      simp only [tapMachine, TapRun.step] at stepped
      split at stepped
      · cases stepped
        exact stored.same ⟨rfl, rfl, rfl⟩
      · cases stepped
    | dispatch event interludes =>
      simp only [tapMachine, TapRun.step] at stepped
      split at stepped
      · split at stepped
        · cases stepped
        · rename_i ran
          cases stepped
          exact (dispatch_ends stored ran).stored
      · cases stepped

/-- In every run, between events a pointer has a stored route exactly if the arena has an entry
for it. An up whose frame returns reaches the objects that could be activated in the path of
the down and can be in its own, in the order of the first, up to one that stops the propagation
or an activation that throws or destroys the owner, and activates those that are still there;
nothing else activates any. After an up or a cancellation that returns nothing is stored. -/
theorem tap_routing {run : TapRun} (reached : Reachable tapMachine run) :
    (∀ pointer, (run.owner.pointerTapRoutes pointer).isSome ↔
      (run.owner.gestureArena.arenas pointer).isSome) ∧
    ∀ event interludes next, tapMachine.step run (.dispatch event interludes) = some next →
      (∀ tree, event.phase = .up → run.framed event interludes = some tree →
        Taps ((run.downs event.pointer).filter (· ∈ TapRun.targets event tree))
          next.owner.reached next.owner.activated
          (next.outcome = .ok () ∧ next.owner.alive = true)) ∧
      (event.phase ≠ .up ∨ run.framed event interludes = none → next.owner.activated = []) ∧
      (event.phase = .up ∨ event.phase = .cancel → next.outcome = .ok () →
        next.owner.pointerTapRoutes event.pointer = none ∧
          next.owner.gestureArena.arenas event.pointer = none) := by
  have stored := stored_reached reached
  refine ⟨fun pointer => ?_, fun event interludes next stepped => ?_⟩
  · cases route : run.owner.pointerTapRoutes pointer with
    | none => simp [(stored.absent pointer route).1]
    | some tap => simp [(stored.present pointer tap route).1]
  · simp only [tapMachine, TapRun.step] at stepped
    split at stepped
    case isFalse => cases stepped
    split at stepped
    · cases stepped
    · rename_i outcome owner ran
      cases stepped
      have dispatched := dispatch_ends stored ran
      refine ⟨dispatched.up, dispatched.quiet, fun phase returned => ?_⟩
      have lifted : run.downsAfter event interludes event.pointer = [] := by
        unfold TapRun.downsAfter
        obtain up | cancel := phase
        · cases framed : run.framed event interludes with
          | none => exact absurd returned (dispatched.refused (by simp [up]) framed)
          | some tree => simp [up]
        · simp [cancel]
      cases route : owner.pointerTapRoutes event.pointer with
      | none => exact ⟨rfl, (dispatched.stored.absent event.pointer route).1⟩
      | some tap => exact absurd lifted (dispatched.stored.present event.pointer tap route).2.2

/-- A label on a button. -/
def buttonTree : RenderOwner :=
  { RenderOwner.initially with
    objects
      | 1 => some { id := 1, kind := .view, children := [2], measure := { size := ⟨20, 20⟩ } }
      | 2 => some { id := 2, kind := .actionBox { onActivate := true }, parent := some 1,
                    children := [3], measure := { size := ⟨20, 20⟩ } }
      | 3 => some { id := 3, kind := .text "tap" true, parent := some 2,
                    measure := { size := ⟨20, 20⟩ } }
      | _ => none
    nextId := 4 }

/-- A tap on the label, whose activation removes the button. -/
theorem tap_routing_label : ∃ run next, Reachable tapMachine run ∧
    tapMachine.step run (.dispatch { pointer := 5, phase := .up }
      [{ tree := buttonTree }, { tree := .initially }]) = some next ∧
    run.downs 5 = [3, 2] ∧ next.owner.activated = [3] ∧
    next.owner.gestureArena.arenas 5 = none := by
  have computed : ((tapMachine.run {} [.change buttonTree true,
      .dispatch { pointer := 5, phase := .down } [{ tree := buttonTree }]]).bind fun run =>
      (tapMachine.step run (.dispatch { pointer := 5, phase := .up }
        [{ tree := buttonTree }, { tree := .initially }])).map fun next =>
          (run.downs 5, next.owner.activated, next.outcome.toOption)) =
      some ([3, 2], [3], some ()) := by
    decide +kernel
  obtain ⟨run, ran, computed⟩ := Option.bind_eq_some_iff.mp computed
  obtain ⟨next, stepped, shown⟩ := Option.map_eq_some_iff.mp computed
  simp only [Prod.mk.injEq] at shown
  obtain ⟨downs, activated, returned⟩ := shown
  have reached : Reachable tapMachine run := Reachable.run (.start rfl) ran
  have ok : next.outcome = .ok () := by
    cases outcome : next.outcome with
    | ok => rfl
    | error failure =>
      rw [outcome] at returned
      cases returned
  obtain ⟨_, _, nothing⟩ := (tap_routing reached).2 _ _ next stepped
  exact ⟨run, next, reached, stepped, downs, activated, (nothing (.inl rfl) ok).2⟩

end Dui
