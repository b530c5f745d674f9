import Mathlib.Data.List.Find
import Mathlib.Logic.Relation
import Dui.FocusManager
import Dui.Transition

/-! The forest of focus nodes. Nodes die in any order and their children go to the parents they
had: what a live node names as its parent is the nearest of the nodes above it, as it was
created, that is still alive. -/
namespace Dui
open Transition

/-- What is done to a manager. -/
inductive FocusAction where
  | call (call : FocusCall)
  | dispatchKey (event : KeyEvent) (run : FocusId → KeyEvent → HandlerRun)

def focusStep (history : FocusHistory) : FocusAction → Option FocusHistory
  | .call call => history.perform call
  | .dispatchKey event run => (history.dispatchKey event run).map (·.2.2)

def focusMachine : Machine FocusHistory FocusAction where
  init := (· = {})
  step := focusStep

/-- The nearest node that is alive on the way up from a node, by the parents that the nodes
were created with. -/
inductive NearestLive (manager : FocusManager) (original : FocusId → Option FocusId) :
    Option FocusId → Option FocusId → Prop where
  | none : NearestLive manager original none none
  | live {id : FocusId} (alive : (manager.nodes id).isSome) :
      NearestLive manager original (some id) (some id)
  | dead {id : FocusId} {found : Option FocusId} (gone : (manager.nodes id).isSome = false)
      (above : NearestLive manager original (original id) found) :
      NearestLive manager original (some id) found

/-- The nodes from one up to one without a parent, all of them alive. -/
inductive AncestorChain (manager : FocusManager) : Option FocusId → List FocusId → Prop where
  | none : AncestorChain manager none []
  | some {id : FocusId} {node : FocusNode} {rest : List FocusId}
      (alive : manager.nodes id = some node) (above : AncestorChain manager node.parent rest) :
      AncestorChain manager (some id) (id :: rest)

/-- The forest of a manager, given the parents that the nodes were created with. -/
structure FocusManager.Sound (manager : FocusManager) (original : FocusId → Option FocusId) :
    Prop where
  issued : ∀ id, (manager.nodes id).isSome → id < manager.nextId
  earlier : ∀ id parent, original id = some parent → parent < id
  nearest : ∀ id node, manager.nodes id = some node →
    NearestLive manager original (original id) node.parent
  focus : ∀ id, manager.focused = some id → (manager.nodes id).any (·.canFocus) = true

section Chains
variable {manager next : FocusManager} {original later : FocusId → Option FocusId}
variable {start found : Option FocusId} {id : FocusId}

theorem NearestLive.alive (nearest : NearestLive manager original start found) :
    ∀ id, found = some id → (manager.nodes id).isSome := by
  induction nearest with
  | none => exact nofun
  | live alive =>
    rintro _ ⟨⟩
    exact alive
  | dead _ _ ih => exact ih

/-- What is found on the way up was issued before anything on the way. -/
theorem NearestLive.bounded (earlier : ∀ id parent, original id = some parent → parent < id)
    (nearest : NearestLive manager original start found) {bound : FocusId}
    (below : ∀ id, start = some id → id < bound) : ∀ id, found = some id → id < bound := by
  induction nearest with
  | none => exact below
  | live alive => exact below
  | dead _ _ ih =>
    refine ih fun parent named => ?_
    exact (earlier _ parent named).trans (below _ rfl)

/-- The way up does not change where the nodes on it stay alive or dead, with the parents they
were created with. -/
theorem NearestLive.congr (earlier : ∀ id parent, original id = some parent → parent < id)
    (nearest : NearestLive manager original start found) {bound : FocusId}
    (below : ∀ id, start = some id → id < bound)
    (same : ∀ id < bound, (next.nodes id).isSome = (manager.nodes id).isSome ∧
      later id = original id) : NearestLive next later start found := by
  induction nearest with
  | none => exact .none
  | live alive => exact .live ((same _ (below _ rfl)).1.trans alive)
  | @dead id found gone above ih =>
    have here := below id rfl
    obtain ⟨alive, parent⟩ := same id here
    refine .dead (alive.trans gone) ?_
    rw [parent]
    refine ih fun above named => ?_
    exact (earlier id above named).trans here

/-- Once a node is gone, the way up that ended there ends where its own did. -/
theorem NearestLive.without (nearest : NearestLive manager original start found)
    {parent : Option FocusId} (own : NearestLive manager original (original id) parent)
    (apart : parent ≠ some id) (gone : (next.nodes id).isSome = false)
    (others : ∀ other, other ≠ id → (next.nodes other).isSome = (manager.nodes other).isSome) :
    NearestLive next original start (if found = some id then parent else found) := by
  have kept : ∀ {start found}, NearestLive manager original start found → found ≠ some id →
      NearestLive next original start found := by
    intro start found nearest
    induction nearest with
    | none => exact fun _ => .none
    | @live other alive =>
      intro different
      have elsewhere : other ≠ id := fun same => different (congrArg some same)
      exact .live ((others other elsewhere).trans alive)
    | @dead other found dead above ih =>
      intro different
      refine .dead ?_ (ih different)
      by_cases same : other = id
      · rw [same, gone]
      · exact (others other same).trans dead
  induction nearest with
  | none => exact .none
  | @live other alive =>
    split
    case isTrue same =>
      cases same
      exact .dead gone (kept own apart)
    case isFalse different => exact kept (.live alive) different
  | @dead other found dead above ih =>
    refine .dead ?_ ih
    by_cases same : other = id
    · rw [same, gone]
    · exact (others other same).trans dead

/-- The nodes collected from one up are all there are, where parents were issued earlier and
are alive. -/
theorem route_chain (parents : ∀ id node parent, manager.nodes id = some node →
      node.parent = some parent → parent < id ∧ (manager.nodes parent).isSome) (fuel : Nat) :
    ∀ {start}, (∀ id, start = some id → id < fuel ∧ (manager.nodes id).isSome) →
      AncestorChain manager start (manager.routeFrom fuel start) := by
  induction fuel with
  | zero =>
    intro start within
    cases start with
    | none => exact .none
    | some id => exact absurd (within id rfl).1 (Nat.not_lt_zero id)
  | succ fuel ih =>
    intro start within
    cases start with
    | none => exact .none
    | some id =>
      obtain ⟨below, there⟩ := within id rfl
      obtain ⟨node, alive⟩ := Option.isSome_iff_exists.mp there
      rw [FocusManager.routeFrom, alive]
      refine .some alive (ih fun parent named => ?_)
      obtain ⟨smaller, present⟩ := parents id node parent alive named
      exact ⟨Nat.lt_of_lt_of_le smaller (Nat.le_of_lt_succ below), present⟩

/-- The loop over the nodes above looks for the first that can take the focus. -/
theorem heir_eq_find (manager : FocusManager) (fuel : Nat) : ∀ start,
    manager.heir fuel start = (manager.routeFrom fuel start).find? fun id =>
      (manager.nodes id).any (·.canFocus) := by
  induction fuel with
  | zero => exact fun _ => rfl
  | succ fuel ih =>
    intro start
    cases start with
    | none => rfl
    | some id =>
      rw [FocusManager.heir, FocusManager.routeFrom]
      cases alive : manager.nodes id with
      | none => rfl
      | some node =>
        dsimp only
        rw [List.find?_cons, alive, Option.any_some, ih]
        cases node.canFocus <;> rfl

theorem route_nodes (same : next.nodes = manager.nodes) (fuel : Nat) : ∀ start,
    next.routeFrom fuel start = manager.routeFrom fuel start := by
  induction fuel with
  | zero => exact fun _ => rfl
  | succ fuel ih =>
    intro start
    cases start with
    | none => rfl
    | some id =>
      rw [FocusManager.routeFrom, FocusManager.routeFrom, same]
      split
      · rfl
      · rw [ih]

/-- There is one chain from a node up. -/
theorem AncestorChain.unique {one other : List FocusId} (first : AncestorChain manager start one)
    (second : AncestorChain manager start other) : one = other := by
  induction first generalizing other with
  | none =>
    cases second
    rfl
  | some alive above ih =>
    cases second with
    | some again further =>
      cases alive.symm.trans again
      rw [ih further]

end Chains

/-! What the calls keep. -/

section Calls
variable {manager next : FocusManager} {original : FocusId → Option FocusId}
variable {id : FocusId} {node : FocusNode}

namespace FocusManager.Sound

/-- What a live node names as its parent is alive and was issued earlier. -/
theorem parents (sound : manager.Sound original) : ∀ id node parent,
    manager.nodes id = some node → node.parent = some parent →
      parent < id ∧ (manager.nodes parent).isSome := by
  intro id node parent alive named
  have nearest := sound.nearest id node alive
  exact ⟨nearest.bounded sound.earlier (sound.earlier id) parent named,
    nearest.alive parent named⟩

/-- The nodes from one up, as they are collected. -/
theorem chain (sound : manager.Sound original) {start : Option FocusId}
    (there : ∀ id, start = some id → (manager.nodes id).isSome) :
    AncestorChain manager start (manager.routeFrom manager.nextId start) :=
  route_chain sound.parents manager.nextId fun id same =>
    ⟨sound.issued id (there id same), there id same⟩

/-- Nodes that keep their parents, and stay alive. -/
theorem kept (sound : manager.Sound original) (nextId : next.nextId = manager.nextId)
    (nodes : ∀ id, (next.nodes id).map FocusNode.parent = (manager.nodes id).map FocusNode.parent)
    (focus : ∀ id, next.focused = some id → (next.nodes id).any (·.canFocus) = true) :
    next.Sound original := by
  have there : ∀ id, (next.nodes id).isSome = (manager.nodes id).isSome := by
    intro id
    have same := congrArg Option.isSome (nodes id)
    rwa [Option.isSome_map, Option.isSome_map] at same
  refine ⟨fun id alive => ?_, sound.earlier, fun id node alive => ?_, focus⟩
  · rw [nextId]
    exact sound.issued id (there id ▸ alive)
  · have same := nodes id
    rw [alive] at same
    obtain ⟨before, held, parent⟩ := Option.map_eq_some_iff.mp same.symm
    have nearest := sound.nearest id before held
    rw [parent] at nearest
    exact nearest.congr sound.earlier (sound.earlier id) fun other _ => ⟨there other, rfl⟩

theorem modified_nodes (manager : FocusManager) (id : FocusId) (f : FocusNode → FocusNode)
    (other : FocusId) : (manager.modify id f).nodes other =
      if other = id then (manager.nodes id).map f else manager.nodes other :=
  Function.update_apply ..

theorem modified (sound : manager.Sound original) {f : FocusNode → FocusNode}
    (parent : ∀ node, (f node).parent = node.parent)
    (focus : manager.focused = some id → ∀ node, manager.nodes id = some node →
      (f node).canFocus = true) : (manager.modify id f).Sound original := by
  refine sound.kept rfl (fun other => ?_) fun other focused => ?_
  · rw [modified_nodes]
    split
    case isTrue same =>
      rw [same, Option.map_map]
      congr 1
      funext node
      exact parent node
    case isFalse => rfl
  · have able := sound.focus other focused
    rw [modified_nodes]
    split
    case isTrue same =>
      subst same
      obtain ⟨node, alive, _⟩ := (Option.any_eq_true _ _).mp able
      rw [alive, Option.map_some, Option.any_some]
      exact focus focused node alive
    case isFalse => exact able

theorem created (sound : manager.Sound original) {parent : Option FocusId}
    (alive : ∀ id, parent = some id → (manager.nodes id).isSome) (handler canFocus : Bool) :
    (manager.createNode parent handler canFocus).2.Sound
      (Function.update original manager.nextId parent) := by
  have present : ∀ {id}, (manager.nodes id).isSome → id ≠ manager.nextId := by
    intro id there same
    exact absurd (sound.issued id there) (same ▸ lt_irrefl _)
  have nodes : ∀ {id}, id ≠ manager.nextId →
      (manager.createNode parent handler canFocus).2.nodes id = manager.nodes id :=
    fun different => Function.update_of_ne different _ _
  have congr : ∀ {start found : Option FocusId}, NearestLive manager original start found →
      (∀ id, start = some id → id < manager.nextId) →
      NearestLive (manager.createNode parent handler canFocus).2
        (Function.update original manager.nextId parent) start found := by
    intro start found nearest below
    refine nearest.congr sound.earlier below fun id below => ⟨?_, ?_⟩
    · rw [nodes (Nat.ne_of_lt below)]
    · exact Function.update_of_ne (Nat.ne_of_lt below) _ _
  refine ⟨fun id there => ?_, fun id above named => ?_, fun id node there => ?_,
    fun id focused => ?_⟩
  · by_cases same : id = manager.nextId
    · rw [same]
      exact Nat.lt_succ_self _
    · rw [nodes same] at there
      exact Nat.lt_succ_of_lt (sound.issued id there)
  · by_cases same : id = manager.nextId
    · subst same
      rw [Function.update_self] at named
      exact sound.issued above (alive above named)
    · rw [Function.update_of_ne same] at named
      exact sound.earlier id above named
  · by_cases same : id = manager.nextId
    · subst same
      change Function.update _ _ _ _ = _ at there
      rw [Function.update_self] at there ⊢
      cases there
      cases parent with
      | none => exact .none
      | some above =>
        exact congr (.live (alive above rfl)) fun id same => by
          cases same
          exact sound.issued above (alive above rfl)
    · rw [nodes same] at there
      rw [Function.update_of_ne same]
      refine congr (sound.nearest id node there) fun above named => ?_
      exact (sound.earlier id above named).trans (sound.issued id (by rw [there]; rfl))
  · have able := sound.focus id focused
    obtain ⟨node, there, _⟩ := (Option.any_eq_true _ _).mp able
    rw [nodes (present (by rw [there]; rfl))]
    exact able

theorem detached_forgets (manager : FocusManager) (id : FocusId) (parent : Option FocusId) :
    (manager.detach id parent).nodes = (manager.forget id parent).nodes := by
  unfold FocusManager.detach
  dsimp only
  split <;> rfl

/-- The nodes once one of them is gone. -/
theorem detached_nodes (manager : FocusManager) (id : FocusId) (parent : Option FocusId)
    (other : FocusId) : (manager.detach id parent).nodes other =
      if other = id then none else (manager.nodes other).map (·.reparent id parent) := by
  rw [detached_forgets, FocusManager.forget]

theorem reparent_can_focus (node : FocusNode) (gone : FocusId) (parent : Option FocusId) :
    (node.reparent gone parent).canFocus = node.canFocus := by
  unfold FocusNode.reparent
  split <;> rfl

theorem detached_next (manager : FocusManager) (id : FocusId) (parent : Option FocusId) :
    (manager.detach id parent).nextId = manager.nextId := by
  unfold FocusManager.detach
  dsimp only
  split <;> rfl

/-- Whether a node that is left can take the focus. -/
theorem detached_able {other : FocusId} (different : other ≠ id) (parent : Option FocusId) :
    ((manager.detach id parent).nodes other).any (·.canFocus) =
      (manager.nodes other).any (·.canFocus) := by
  rw [detached_nodes, if_neg different]
  cases manager.nodes other with
  | none => rfl
  | some node => exact reparent_can_focus node id parent

theorem detached (sound : manager.Sound original) (alive : manager.nodes id = some node) :
    (manager.detach id node.parent).Sound original := by
  have own := sound.nearest id node alive
  have apart : node.parent ≠ some id := fun named =>
    absurd (sound.parents id node id alive named).1 (lt_irrefl _)
  have others : ∀ other, other ≠ id → ((manager.detach id node.parent).nodes other).isSome =
      (manager.nodes other).isSome := by
    intro other different
    rw [detached_nodes, if_neg different, Option.isSome_map]
  have gone : ((manager.detach id node.parent).nodes id).isSome = false := by
    rw [detached_nodes, if_pos rfl]
    rfl
  have left : ∀ {other}, ((manager.detach id node.parent).nodes other).isSome → other ≠ id := by
    rintro _ there rfl
    rw [gone] at there
    cases there
  refine ⟨fun other there => ?_, sound.earlier, fun other now there => ?_, fun other focused => ?_⟩
  · rw [detached_next]
    exact sound.issued other (others other (left there) ▸ there)
  · have different := left (by rw [there]; rfl)
    rw [detached_nodes, if_neg different] at there
    obtain ⟨before, held, rfl⟩ := Option.map_eq_some_iff.mp there
    have nearest := (sound.nearest other before held).without own apart gone others
    unfold FocusNode.reparent
    split
    case isTrue named =>
      rw [if_pos named] at nearest
      exact nearest
    case isFalse elsewhere =>
      rw [if_neg elsewhere] at nearest
      exact nearest
  · have looked := focused
    unfold FocusManager.detach at looked
    dsimp only at looked
    split at looked
    case isTrue elsewhere =>
      have different : other ≠ id := fun same => elsewhere (looked.trans (congrArg some same))
      rw [detached_able different]
      exact sound.focus other looked
    case isFalse =>
      dsimp only at looked
      rw [heir_eq_find] at looked
      have able := List.find?_some looked
      rw [detached_nodes]
      exact able

theorem destroyed (sound : manager.Sound original) (id : FocusId) :
    (manager.destroyNode id).Sound original := by
  unfold FocusManager.destroyNode
  cases alive : manager.nodes id with
  | none => exact sound
  | some node => exact sound.detached alive

/-- The chain above a node is the same once the node is gone. -/
theorem chain_left (sound : manager.Sound original) {start : Option FocusId} {chain : List FocusId}
    (above : AncestorChain manager start chain) (below : ∀ other, start = some other → other < id)
    (parent : Option FocusId) : AncestorChain (manager.detach id parent) start chain := by
  induction above with
  | none => exact .none
  | @some other node rest alive above ih =>
    have smaller := below other rfl
    have up : ∀ parent, node.parent = some parent → parent < id := fun parent named =>
      (sound.parents other node parent alive named).1.trans smaller
    have same : node.reparent id parent = node := by
      unfold FocusNode.reparent
      exact if_neg fun named => absurd (up id named) (lt_irrefl _)
    have kept : (manager.detach id parent).nodes other = some node := by
      rw [detached_nodes, if_neg (Nat.ne_of_lt smaller), alive, Option.map_some, same]
    exact .some kept (ih up)

theorem chain_below (sound : manager.Sound original) {start : Option FocusId}
    {chain : List FocusId} (above : AncestorChain manager start chain)
    (below : ∀ other, start = some other → other < id) : ∀ other ∈ chain, other < id := by
  induction above with
  | none => exact nofun
  | @some other node rest alive above ih =>
    have smaller := below other rfl
    refine List.forall_mem_cons.mpr ⟨smaller, ih fun parent named => ?_⟩
    exact (sound.parents other node parent alive named).1.trans smaller

/-- The focus of a node that dies goes to the first node above it that can take it. -/
theorem focus_left (sound : manager.Sound original) (alive : manager.nodes id = some node)
    (focused : manager.focused = some id) : ∃ chain, AncestorChain manager node.parent chain ∧
      (manager.destroyNode id).focused =
        chain.find? fun other => (manager.nodes other).any (·.canFocus) := by
  have smaller := fun parent named => (sound.parents id node parent alive named).1
  have above := sound.chain fun parent named => (sound.parents id node parent alive named).2
  refine ⟨_, above, ?_⟩
  have after : AncestorChain (manager.detach id node.parent) node.parent
      ((manager.detach id node.parent).routeFrom manager.nextId node.parent) := by
    rw [← detached_next manager id node.parent]
    refine (sound.detached alive).chain fun parent named => ?_
    rw [detached_nodes, if_neg (Nat.ne_of_lt (smaller parent named)), Option.isSome_map]
    exact (sound.parents id node parent alive named).2
  have same := after.unique (sound.chain_left above smaller node.parent)
  rw [FocusManager.destroyNode, alive]
  have taken : (manager.detach id node.parent).focused =
      ((manager.detach id node.parent).routeFrom manager.nextId node.parent).find? fun other =>
        ((manager.detach id node.parent).nodes other).any (·.canFocus) := by
    rw [route_nodes (detached_forgets manager id node.parent), detached_forgets]
    refine Eq.trans ?_ (heir_eq_find (manager.forget id node.parent) manager.nextId node.parent)
    exact congrArg FocusManager.focused (if_neg (not_not.mpr focused))
  rw [taken, same]
  refine List.find?_congr fun other listed => detached_able (Nat.ne_of_lt ?_) node.parent
  exact sound.chain_below above smaller other listed

end FocusManager.Sound

end Calls

/-! Runs. -/

section Runs
variable {history next : FocusHistory}

/-- The manager of a history is a forest. -/
abbrev FocusHistory.Sound (history : FocusHistory) : Prop :=
  history.manager.Sound history.original

theorem perform_sound (sound : history.Sound) {call : FocusCall}
    (performed : history.perform call = some next) : next.Sound := by
  cases call with
  | createNode parent handler canFocus =>
    rw [FocusHistory.perform] at performed
    split at performed
    case isFalse => cases performed
    case isTrue alive =>
      cases performed
      exact FocusManager.Sound.created sound
        (fun id same => by rw [same] at alive; exact alive) handler canFocus
  | destroyNode id =>
    rw [FocusHistory.perform] at performed
    split at performed
    case isFalse => cases performed
    case isTrue =>
      split at performed
      · cases performed
        exact sound
      · cases performed
        exact FocusManager.Sound.destroyed sound id
  | requestFocus id =>
    rw [FocusHistory.perform] at performed
    obtain ⟨node, alive, rfl⟩ := Option.map_eq_some_iff.mp performed
    by_cases able : node.canFocus = true
    · rw [FocusManager.requestFocus, if_pos able]
      refine FocusManager.Sound.kept sound rfl (fun _ => rfl) fun other focused => ?_
      cases focused
      change (history.manager.nodes id).any _ = true
      rw [alive, Option.any_some]
      exact able
    · rw [FocusManager.requestFocus, if_neg able]
      exact sound
  | clearFocus =>
    cases performed
    exact FocusManager.Sound.kept sound rfl (fun _ => rfl) nofun
  | setCanFocus id value =>
    rw [FocusHistory.perform] at performed
    split at performed
    case isFalse => cases performed
    case isTrue there =>
      cases performed
      obtain ⟨node, alive⟩ := Option.isSome_iff_exists.mp there
      have parents : ∀ other,
          ((history.manager.modify id fun node => { node with canFocus := value }).nodes other).map
            FocusNode.parent = (history.manager.nodes other).map FocusNode.parent := by
        intro other
        rw [FocusManager.Sound.modified_nodes]
        split
        case isTrue same => rw [same, Option.map_map]; rfl
        case isFalse => rfl
      change (history.manager.setCanFocus id value).Sound history.original
      unfold FocusManager.setCanFocus
      dsimp only
      split
      case isTrue =>
        exact FocusManager.Sound.kept sound rfl parents nofun
      case isFalse stays =>
        refine FocusManager.Sound.modified sound (fun _ => rfl) fun focused _ _ => ?_
        have still : (history.manager.modify id fun node =>
            { node with canFocus := value }).focusedNode = some id := by
          unfold FocusManager.focusedNode
          rw [show (history.manager.modify id fun node =>
            { node with canFocus := value }).focused = some id from focused, Option.filter_some,
            FocusManager.Sound.modified_nodes, if_pos rfl, alive]
          rfl
        rw [still] at stays
        simpa using stays
  | setKeyHandler id present =>
    rw [FocusHistory.perform] at performed
    split at performed
    case isFalse => cases performed
    case isTrue =>
      cases performed
      refine FocusManager.Sound.modified sound (fun _ => rfl) fun focused node alive => ?_
      have able := sound.focus id focused
      rw [alive, Option.any_some] at able
      exact able

theorem calls_sound (calls : List FocusCall) : ∀ {history : FocusHistory}, history.Sound →
    calls.foldlM FocusHistory.perform history = some next → next.Sound := by
  induction calls with
  | nil =>
    intro history sound performed
    cases performed
    exact sound
  | cons call rest ih =>
    intro history sound performed
    rw [List.foldlM_cons] at performed
    obtain ⟨middle, first, performed⟩ := Option.bind_eq_some_iff.mp performed
    exact ih (perform_sound sound first) performed

/-- The nodes that a key passes: none of them handles it. -/
def Passes (entry : FocusId × FocusHistory.Offer) : Prop :=
  entry.2 = .noHandler ∨ entry.2 = .ended (some .ignored)

/-- A key goes up the route until a handler does something else than to ignore it. -/
def OfferedAlong (route : List FocusId) (offers : List (FocusId × FocusHistory.Offer))
    (result : Option KeyEventResult) : Prop :=
  ∃ passed left, route = passed.map Prod.fst ++ left ∧ (∀ entry ∈ passed, Passes entry) ∧
    (left = [] ∧ offers = passed ∧ result = some .ignored ∨
      ∃ id rest, left = id :: rest ∧ offers = passed ++ [(id, .ended result)] ∧
        result ≠ some .ignored)

theorem OfferedAlong.past {route : List FocusId} {offers : List (FocusId × FocusHistory.Offer)}
    {result : Option KeyEventResult} {id : FocusId} {offer : FocusHistory.Offer}
    (along : OfferedAlong route offers result) (passes : Passes (id, offer)) :
    OfferedAlong (id :: route) ((id, offer) :: offers) result := by
  obtain ⟨passed, left, rfl, all, ended⟩ := along
  refine ⟨(id, offer) :: passed, left, rfl, List.forall_mem_cons.mpr ⟨passes, all⟩, ?_⟩
  rcases ended with ⟨none, rfl, same⟩ | ⟨id, rest, same, rfl, handled⟩
  · exact .inl ⟨none, rfl, same⟩
  · exact .inr ⟨id, rest, same, rfl, handled⟩

theorem offer_along (run : FocusId → HandlerRun) (route : List FocusId) :
    ∀ {history offers result}, history.Sound →
      FocusHistory.offer run history route = some (offers, result, next) →
      next.Sound ∧ OfferedAlong route offers result := by
  induction route with
  | nil =>
    intro history offers result sound offered
    cases offered
    exact ⟨sound, [], [], rfl, nofun, .inl ⟨rfl, rfl, rfl⟩⟩
  | cons id rest ih =>
    intro history offers result sound offered
    rw [FocusHistory.offer] at offered
    split at offered
    case isTrue =>
      obtain ⟨middle, called, offered⟩ := Option.bind_eq_some_iff.mp offered
      have sound := calls_sound (run id).calls sound called
      split at offered
      case h_1 =>
        obtain ⟨⟨offers, result, last⟩, further, same⟩ := Option.bind_eq_some_iff.mp offered
        cases same
        obtain ⟨sound, along⟩ := ih sound further
        exact ⟨sound, along.past (.inr rfl)⟩
      case h_2 handled =>
        cases offered
        exact ⟨sound, [], id :: rest, rfl, nofun, .inr ⟨id, rest, rfl, rfl, handled⟩⟩
    case isFalse =>
      obtain ⟨⟨offers, result, last⟩, further, same⟩ := Option.bind_eq_some_iff.mp offered
      cases same
      obtain ⟨sound, along⟩ := ih sound further
      exact ⟨sound, along.past (.inl rfl)⟩

/-- The loop ends, unless a handler makes calls that cannot be made. -/
theorem offer_ends (run : FocusId → HandlerRun) (route : List FocusId) :
    ∀ {history}, FocusHistory.offer run history route = none →
      ∃ id ∈ route, ∃ middle, (run id).calls.foldlM FocusHistory.perform middle = none := by
  induction route with
  | nil => exact nofun
  | cons id rest ih =>
    intro history stuck
    have later : ∀ {middle}, FocusHistory.offer run middle rest = none →
        ∃ other ∈ id :: rest, ∃ middle,
          (run other).calls.foldlM FocusHistory.perform middle = none := by
      intro middle stuck
      obtain ⟨other, listed, found⟩ := ih stuck
      exact ⟨other, List.mem_cons_of_mem _ listed, found⟩
    rw [FocusHistory.offer] at stuck
    split at stuck
    case isTrue =>
      cases called : (run id).calls.foldlM FocusHistory.perform history with
      | none => exact ⟨id, List.mem_cons_self, history, called⟩
      | some middle =>
        rw [called] at stuck
        simp only [Option.bind_eq_bind, Option.bind_some] at stuck
        split at stuck
        case h_1 =>
          cases further : FocusHistory.offer run middle rest with
          | none => exact later further
          | some found =>
            rw [further] at stuck
            cases stuck
        case h_2 => cases stuck
    case isFalse =>
      cases further : FocusHistory.offer run history rest with
      | none => exact later further
      | some found =>
        rw [further] at stuck
        cases stuck

theorem let_go_sound (sound : history.Sound) (route : List FocusId) :
    (history.letGo route).Sound := by
  have each : ∀ (ids : List FocusId) {manager : FocusManager}, manager.Sound history.original →
      (ids.foldl FocusManager.destroyNode manager).Sound history.original := by
    intro ids
    induction ids with
    | nil => exact fun sound => sound
    | cons id rest ih => exact fun sound => ih (sound.destroyed id)
  exact each _ sound

theorem dispatch_along {event : KeyEvent} {run : FocusId → KeyEvent → HandlerRun}
    {offers : List (FocusId × FocusHistory.Offer)} {result : Option KeyEventResult}
    (sound : history.Sound)
    (dispatched : history.dispatchKey event run = some (offers, result, next)) :
    next.Sound ∧ OfferedAlong history.manager.route offers result := by
  obtain ⟨⟨offers, result, last⟩, offered, same⟩ := Option.bind_eq_some_iff.mp dispatched
  cases same
  obtain ⟨kept, along⟩ := offer_along _ _ (show FocusHistory.Sound
    { history with held := history.manager.route } from sound) offered
  exact ⟨let_go_sound kept _, along⟩

theorem focus_sound (reached : Reachable focusMachine history) : history.Sound := by
  refine reached.invariant FocusHistory.Sound ?_ ?_
  · rintro _ rfl
    exact ⟨nofun, nofun, nofun, nofun⟩
  · intro history action next sound _ stepped
    cases action with
    | call call => exact perform_sound sound stepped
    | dispatchKey event run =>
      obtain ⟨⟨offers, result, last⟩, dispatched, rfl⟩ := Option.map_eq_some_iff.mp stepped
      exact (dispatch_along sound dispatched).1

/-- The focused node is alive and can take the focus; live nodes name the nearest live node
above them, issued earlier; a key is offered to the focused node and on upwards until a handler
handles it; and the focus of a node that dies goes to the nearest node above that can take it. -/
theorem focus_forest (reached : Reachable focusMachine history) :
    (∀ id, history.manager.focused = some id →
      ∃ node, history.manager.nodes id = some node ∧ node.canFocus = true) ∧
    (∀ id node, history.manager.nodes id = some node →
      NearestLive history.manager history.original (history.original id) node.parent ∧
        ∀ parent, node.parent = some parent → parent < id) ∧
    (∀ id, ¬Relation.TransGen (fun child parent => ∃ node,
      history.manager.nodes child = some node ∧ node.parent = some parent) id id) ∧
    AncestorChain history.manager history.manager.focused history.manager.route ∧
    (∀ event run,
      (history.dispatchKey event run = none → ∃ id ∈ history.manager.route, ∃ middle,
        (run id event).calls.foldlM FocusHistory.perform middle = none) ∧
      ∀ offers result next, history.dispatchKey event run = some (offers, result, next) →
        OfferedAlong history.manager.route offers result) ∧
    ∀ id node, history.manager.focused = some id → history.manager.nodes id = some node →
      ∃ chain, AncestorChain history.manager node.parent chain ∧
        (history.manager.destroyNode id).focused =
          chain.find? fun other => (history.manager.nodes other).any (·.canFocus) := by
  have sound := focus_sound reached
  have focus : ∀ id, history.manager.focused = some id →
      ∃ node, history.manager.nodes id = some node ∧ node.canFocus = true :=
    fun id focused => (Option.any_eq_true _ _).mp (sound.focus id focused)
  refine ⟨focus, fun id node alive => ⟨sound.nearest id node alive, fun parent named =>
    (sound.parents id node parent alive named).1⟩, fun id cycle => ?_, ?_, fun event run =>
    ⟨fun stuck => ?_, fun offers result next dispatched => (dispatch_along sound dispatched).2⟩,
    fun id node focused alive => sound.focus_left alive focused⟩
  · have descends : ∀ {child parent}, Relation.TransGen (fun child parent => ∃ node,
        history.manager.nodes child = some node ∧ node.parent = some parent) child parent →
        parent < child := by
      intro child parent path
      induction path with
      | single step =>
        obtain ⟨node, alive, named⟩ := step
        exact (sound.parents _ node _ alive named).1
      | tail path step ih =>
        obtain ⟨node, alive, named⟩ := step
        exact (sound.parents _ node _ alive named).1.trans ih
    exact absurd (descends cycle) (lt_irrefl id)
  · have same : history.manager.focusedNode = history.manager.focused := by
      unfold FocusManager.focusedNode
      cases focused : history.manager.focused with
      | none => rfl
      | some id =>
        obtain ⟨node, alive, _⟩ := focus id focused
        rw [Option.filter_some, alive]
        rfl
    rw [FocusManager.route, same]
    refine sound.chain fun id focused => ?_
    obtain ⟨node, alive, _⟩ := focus id focused
    rw [alive]
    rfl
  · unfold FocusHistory.dispatchKey at stuck
    dsimp only at stuck
    cases offered : FocusHistory.offer (run · event)
      { history with held := history.manager.route } history.manager.route with
    | none => exact offer_ends _ _ offered
    | some found =>
      rw [offered] at stuck
      cases stuck

/-- A node whose parent has died goes to the one above it, which takes over the focus. -/
theorem focus_moves_up : ∃ history, Reachable focusMachine history ∧
    history.manager.focused = some 3 ∧ ∃ chain, AncestorChain history.manager (some 1) chain ∧
      (history.manager.destroyNode 3).focused =
        chain.find? fun other => (history.manager.nodes other).any (·.canFocus) := by
  obtain ⟨history, ran, focused, alive⟩ : ∃ history, focusMachine.run {}
      [.call (.createNode none false true), .call (.createNode (some 1) false false),
        .call (.createNode (some 2) true true), .call (.requestFocus 3),
        .call (.destroyNode 2)] = some history ∧ history.manager.focused = some 3 ∧
      history.manager.nodes 3 = some { parent := some 1, canFocus := true, handler := true } :=
    ⟨_, rfl, rfl, rfl⟩
  have reached : Reachable focusMachine history := Reachable.run (.start rfl) ran
  obtain ⟨_, _, _, _, _, left⟩ := focus_forest reached
  exact ⟨history, reached, focused, left 3 _ focused alive⟩

end Runs

end Dui
