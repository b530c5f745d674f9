import Dui.Restoration

/-! Saved states come back: what an owner saves are its pending records and the values of
its restorable slots, and an owner that restores them saves the same, whether or not
slots have claimed their records in between. -/
namespace Dui
open Effect Transition StateOwner

private theorem int_two_pow_le {bits : Nat} (small : bits ≤ 63) : (2 : Int) ^ bits ≤ 2 ^ 63 := by
  have power : 2 ^ bits ≤ 2 ^ 63 := Nat.pow_le_pow_right (by decide) small
  exact_mod_cast power

/-- Decoding what was encoded gives the value back. -/
theorem decode_encode {kind : StateKind} (restorable : kind.restorable = true)
    (value : kind.Value) : ∃ encoded, encodeRestorationValue kind value = some encoded ∧
      decodeRestorationValue kind encoded = .ok value := by
  cases kind with
  | bool => exact ⟨_, rfl, rfl⟩
  | text => exact ⟨_, rfl, rfl⟩
  | other => cases restorable
  | signed bits =>
    obtain ⟨value, low, high⟩ := value
    simp only [StateKind.restorable, Bool.and_eq_true, decide_eq_true_eq] at restorable
    have power := @int_two_pow_le (bits - 1) (by omega)
    have back : (Int64.ofInt value).toInt = value := by
      apply Int64.toInt_ofInt_of_le <;> omega
    refine ⟨_, rfl, ?_⟩
    simp only [decodeRestorationValue, back, dif_pos (And.intro low high)]
  | unsigned bits =>
    obtain ⟨value, fits⟩ := value
    simp only [StateKind.restorable, decide_eq_true_eq] at restorable
    have power : 2 ^ bits ≤ 2 ^ 64 := Nat.pow_le_pow_right (by decide) restorable
    have back : (UInt64.ofNat value).toNat = value := by
      rw [UInt64.toNat_ofNat']
      exact Nat.mod_eq_of_lt (by omega)
    refine ⟨_, rfl, ?_⟩
    simp only [decodeRestorationValue, back, dif_pos fits]

/-- Encoding what was decoded gives the record's value back. -/
theorem encode_decode {kind : StateKind} {encoded : RestorationValue} {value : kind.Value}
    (decoded : decodeRestorationValue kind encoded = .ok value) :
    encodeRestorationValue kind value = some encoded := by
  cases kind with
  | bool | text | other =>
    cases encoded <;> cases decoded <;> rfl
  | signed bits =>
    cases encoded with
    | int64 encoded =>
      simp only [decodeRestorationValue] at decoded
      split at decoded <;> cases decoded
      exact congrArg (some ∘ RestorationValue.int64) (Int64.ofInt_toInt encoded)
    | bool | uint64 | text => cases decoded
  | unsigned bits =>
    cases encoded with
    | uint64 encoded =>
      simp only [decodeRestorationValue] at decoded
      split at decoded <;> cases decoded
      exact congrArg (some ∘ RestorationValue.uint64) (UInt64.ofNat_toNat)
    | bool | int64 | text => cases decoded

/-! ### What the calls do -/

section Calls

theorem refusing {σ β : Type} {pre : σ → Prop} {condition : σ → Bool} {failure : Failure}
    {next : Run σ Failure β} {after : Except Failure β → σ → Prop}
    (thrown : ∀ state, pre state → condition state = true → after (.error failure) state)
    (rest : Triple (fun state => pre state ∧ condition state = false) next after) :
    Triple pre (refuse condition failure >>= fun _ => next) after := by
  have refused : Triple pre (refuse condition failure) fun outcome state => pre state ∧
      outcome = if condition state then .error failure else .ok () := by
    refine Triple.consulting fun holds => ?_
    cases holds with
    | true => exact Triple.throwing fun _ held => ⟨held.1, by simp [held.2]⟩
    | false => exact Triple.returning fun _ held => ⟨held.1, by simp [held.2]⟩
  refine Triple.bind refused (fun _ => ?_) ?_
  · refine rest.weaken (fun state held => ⟨held.1, ?_⟩) fun _ _ held => held
    cases holds : condition state with
    | false => rfl
    | true => simp [holds] at held
  · rintro failure state ⟨held, same⟩
    cases holds : condition state with
    | false => simp [holds] at same
    | true =>
      simp only [holds, if_true, Except.error.injEq] at same
      exact same ▸ thrown state held holds

/-- A call that throws leaves the owner as it was. -/
def Unless (owner : StateOwner) (done : StateOwner → Prop) (outcome : Except Failure Unit)
    (after : StateOwner) : Prop :=
  (∃ failure, outcome = .error failure ∧ after = owner) ∨ outcome = .ok () ∧ done after

variable {owner : StateOwner} {done : StateOwner → Prop}

theorem Unless.thrown {failure : Failure} {after : StateOwner} (same : after = owner) :
    Unless owner done (.error failure) after := Or.inl ⟨failure, rfl, same⟩

theorem refusing_unchanged {condition : StateOwner → Bool} {failure : Failure}
    {next : Stating Unit}
    (rest : condition owner = false → Triple (· = owner) next (Unless owner done)) :
    Triple (· = owner) (refuse condition failure >>= fun _ => next) (Unless owner done) := by
  refine refusing (fun _ same _ => .thrown same) ?_
  rintro state outcome after ⟨rfl, allowed⟩ ran
  exact rest allowed _ outcome after rfl ran

/-- A declaration goes on with no slot, or with the slot that has its name and its type. -/
theorem declared_slot {key : SlotKey} {name : ByteString} {type : StateType}
    {next : Option StateSlot → Stating Unit}
    (rest : (∀ slot, owner.findSlot key = some slot → slot.name = name ∧ slot.type = type) →
      Triple (· = owner) (next (owner.findSlot key)) (Unless owner done)) :
    Triple (· = owner) (declaredSlot key name type >>= next) (Unless owner done) := by
  have slotted : Triple (· = owner) (declaredSlot key name type) fun outcome after =>
      after = owner ∧ ∀ slot, outcome = .ok slot → slot = owner.findSlot key ∧
        ∀ there, slot = some there → there.name = name ∧ there.type = type := by
    refine Triple.consulting fun slot => ?_
    split
    case isTrue => exact Triple.throwing fun _ held => ⟨held.1, nofun⟩
    case isFalse named =>
      split
      case isTrue => exact Triple.throwing fun _ held => ⟨held.1, nofun⟩
      case isFalse typed =>
        refine Triple.returning ?_
        rintro state ⟨rfl, found⟩
        refine ⟨rfl, fun other same => ?_⟩
        cases same
        refine ⟨found.symm, fun there same => ?_⟩
        subst same
        simpa using And.intro named typed
  refine Triple.bind slotted (fun slot => ?_) fun failure after held => .thrown held.1
  rintro state outcome after ⟨rfl, held⟩ ran
  obtain ⟨rfl, matching⟩ := held slot rfl
  exact rest matching _ outcome after rfl ran

/-- A plain declaration leaves its slot plain, or throws. -/
theorem declare_plain_does (owner : StateOwner) (element : ElementId) (name : ByteString)
    (type : StateType) (initial : type.kind.Value) :
    Triple (· = owner) (declarePlain element name type initial) (Unless owner fun after =>
      ∃ slot : StateSlot, slot.restorationId = none ∧ slot.restorationValue = none ∧
        after = owner.setSlot (element, hashName name) slot) := by
  refine refusing_unchanged fun _ => declared_slot fun _ => Triple.changing ?_
  rintro state rfl
  exact Or.inr ⟨rfl, _, rfl, rfl, rfl⟩

/-- The slot a restorable declaration goes on with: the one that is there, or a new one with
the pending record's value, if there is a record. -/
def ClaimedSlot (owner : StateOwner) (key : SlotKey) (id : ByteString) (slot : StateSlot) : Prop :=
  owner.findSlot key = some slot ∨
    owner.findSlot key = none ∧ slot.restorationId = none ∧
      ∀ record, owner.pending.find? (·.id = id) = some record →
        encodeRestorationValue slot.type.kind slot.value = some record.value

/-- Setting a slot twice sets it once. -/
@[simp] theorem StateOwner.setSlot_setSlot (owner : StateOwner) (key : SlotKey)
    (first second : StateSlot) : (owner.setSlot key first).setSlot key second =
      owner.setSlot key second := by
  simp [StateOwner.setSlot, List.filter_append, List.filter_filter]

/-- A slot's first value is its initial one, or the decoded one of the record. -/
theorem first_value_does {owner : StateOwner} (type : StateType) (initial : type.kind.Value)
    (pending : Option RestorationRecord) :
    Triple (· = owner) (firstValue type initial pending) fun outcome after => after = owner ∧
      ∀ value, outcome = .ok value → ∀ record, pending = some record →
        encodeRestorationValue type.kind value = some record.value := by
  cases pending with
  | none => exact Triple.returning fun _ held => ⟨held, nofun⟩
  | some record =>
    refine Triple.resuming fun _ held => ⟨held, fun value decoded other same => ?_⟩
    cases same
    exact encode_decode decoded

/-- The slot is there, or is made now, which a record of the wrong value prevents. -/
theorem claim_slot_does {owner : StateOwner} {key : SlotKey} {name : ByteString}
    {type : StateType} (initial : type.kind.Value) (id : ByteString)
    (matching : ∀ slot, owner.findSlot key = some slot → slot.name = name ∧ slot.type = type) :
    Triple (· = owner) (claimSlot key name type initial id (owner.findSlot key))
      fun outcome after => (∀ failure, outcome = .error failure → after = owner) ∧
        ∀ slot, outcome = .ok slot → slot.type = type ∧ ClaimedSlot owner key id slot ∧
          (after = owner ∨ after = owner.setSlot key slot) := by
  cases found : owner.findSlot key with
  | some slot =>
    refine Triple.returning fun state held => ⟨nofun, fun other same => ?_⟩
    cases same
    exact ⟨(matching slot found).2, .inl found, .inl held⟩
  | none =>
    refine Triple.consulting fun pending => ?_
    have valued : Triple (fun state => state = owner ∧ state.pending.find? (·.id = id) = pending)
        (firstValue type initial pending) fun outcome after => after = owner ∧
          ∀ value, outcome = .ok value → ∀ record, owner.pending.find? (·.id = id) = some record →
            encodeRestorationValue type.kind value = some record.value := by
      rintro state outcome after ⟨rfl, listed⟩ ran
      rw [listed]
      exact first_value_does type initial pending _ _ _ rfl ran
    refine Triple.bind valued (fun value => ?_) fun failure after held => ⟨fun _ _ => held.1, nofun⟩
    rintro state outcome after ⟨rfl, encoded⟩ ran
    cases ran
    refine ⟨nofun, fun slot same => ?_⟩
    cases same
    exact ⟨rfl, .inr ⟨found, rfl, encoded value rfl⟩, .inr rfl⟩

/-- A restorable declaration makes its slot restorable and takes the record over, or throws. -/
theorem declare_restorable_does (owner : StateOwner) (element : ElementId) (name : ByteString)
    (type : StateType) (initial : type.kind.Value) (id : ByteString) :
    Triple (· = owner) (declareRestorable element name type initial id)
      (Unless owner fun after => ∃ slot : StateSlot, slot.type = type ∧ id ≠ [] ∧
        owner.restorationIdInUse id (element, hashName name) = false ∧
        ClaimedSlot owner (element, hashName name) id slot ∧
        after = { owner.adopt (element, hashName name) slot id with
          pending := owner.pending.filter (·.id ≠ id) }) := by
  refine refusing_unchanged fun _ => refusing_unchanged fun named => declared_slot fun matching =>
    refusing_unchanged fun unused => ?_
  replace named : id ≠ [] := by simpa using named
  refine Triple.bind (claim_slot_does initial id matching) (fun slot => ?_)
    fun failure after held => .thrown (held.1 _ rfl)
  rintro state outcome after ⟨-, held⟩ ran
  obtain ⟨typed, source, rfl | rfl⟩ := held slot rfl <;> cases ran
  · exact .inr ⟨rfl, slot, typed, named, unused, source, rfl⟩
  · exact .inr ⟨rfl, slot, typed, named, unused, source,
      congrArg (fun state : StateOwner =>
        { state with pending := owner.pending.filter (·.id ≠ id) }) (setSlot_setSlot ..)⟩

/-- A write keeps the slot's id, with the new value cached if there is one, or throws. -/
theorem write_slot_does (owner : StateOwner) (key : SlotKey) (type : StateType)
    (value : type.kind.Value) :
    Triple (· = owner) (writeSlot key type value) (Unless owner fun after => after = owner ∨
      ∃ slot next : StateSlot, owner.findSlot key = some slot ∧ after = owner.setSlot key next ∧
        next.restorationId = slot.restorationId ∧ (next.restorationId.isSome →
          encodeRestorationValue next.type.kind next.value = next.restorationValue ∧
            next.restorationValue.isSome)) := by
  refine refusing_unchanged fun _ => refusing_unchanged fun _ => ?_
  refine Triple.consulting fun found => ?_
  cases found with
  | none => exact Triple.throwing fun _ held => .thrown held.1
  | some slot =>
    dsimp only
    cases slot.valueAs type with
    | none => exact Triple.throwing fun _ held => .thrown held.1
    | some current =>
      dsimp only
      split
      · exact Triple.returning fun _ held => .inr ⟨rfl, .inl held.1⟩
      · split
        case isTrue plain =>
          refine Triple.changing ?_
          rintro state ⟨rfl, found⟩
          simp only [Option.isNone_iff_eq_none] at plain
          exact .inr ⟨rfl, .inr ⟨slot, _, found, rfl, rfl, by simp [plain]⟩⟩
        case isFalse =>
          split
          · exact Triple.throwing fun _ held => .thrown held.1
          · rename_i encoded restored
            refine Triple.changing ?_
            rintro state ⟨rfl, found⟩
            exact .inr ⟨rfl, .inr ⟨slot, _, found, rfl, rfl, fun _ => ⟨restored, rfl⟩⟩⟩

/-- The records that are staged have names of their own. -/
theorem stage_records_does {owner : StateOwner} (snapshot staged : List RestorationRecord)
    (distinct : (staged.map (·.id)).Nodup) (named : ∀ record ∈ staged, record.id ≠ []) :
    Triple (· = owner) (stageRecords staged snapshot) fun outcome after => after = owner ∧
      ∀ records, outcome = .ok records → records = staged ++ snapshot ∧
        (records.map (·.id)).Nodup ∧ ∀ record ∈ records, record.id ≠ [] := by
  induction snapshot generalizing staged with
  | nil =>
    refine Triple.returning fun _ held => ⟨held, fun records same => ?_⟩
    cases same
    exact ⟨by simp, distinct, named⟩
  | cons record rest ih =>
    unfold stageRecords
    split
    case isTrue => exact Triple.throwing fun _ held => ⟨held, nofun⟩
    case isFalse nonempty =>
      split
      case isTrue => exact Triple.throwing fun _ held => ⟨held, nofun⟩
      case isFalse fresh =>
        refine (ih (staged ++ [record]) ?_ ?_).weaken (fun _ held => held) fun outcome after held =>
          ⟨held.1, fun records same => ?_⟩
        · simp only [List.map_append, List.map_cons, List.map_nil, List.nodup_append]
          refine ⟨distinct, by simp, fun id listed other new => ?_⟩
          simp at fresh new listed
          grind
        · intro other listed
          simp at nonempty listed
          grind
        · obtain ⟨rfl, rest⟩ := held.2 records same
          exact ⟨by simp, rest⟩

/-- Restoring replaces the pending records by a snapshot of distinct names, or throws. -/
theorem restore_state_does (owner : StateOwner) (snapshot : List RestorationRecord) :
    Triple (· = owner) (restoreState snapshot) (Unless owner fun after =>
      (owner.registry = [] ∧ (snapshot.map (·.id)).Nodup ∧ ∀ record ∈ snapshot, record.id ≠ []) ∧
        after = { owner with pending := snapshot }) := by
  refine refusing_unchanged fun _ => refusing_unchanged fun fresh => ?_
  refine Triple.bind (stage_records_does snapshot [] (by simp) (by simp)) (fun records => ?_)
    fun failure after held => .thrown held.1
  refine Triple.changing fun state held => .inr ⟨rfl, ?_⟩
  obtain ⟨rfl, held⟩ := held
  obtain ⟨rfl, distinct, named⟩ := held records rfl
  simp at fresh
  exact ⟨⟨fresh.1.2, distinct, named⟩, rfl⟩

theorem discard_does (owner : StateOwner) : Triple (· = owner) discardPendingRestoration
    (Unless owner (· = { owner with pending := [] })) := by
  refine refusing_unchanged fun _ => Triple.changing ?_
  rintro state rfl
  exact .inr ⟨rfl, rfl⟩

end Calls

/-! ### The records of an owner -/

/-- A list of distinct keys with the entry of one key put at the end. -/
theorem perm_taken_out {α κ : Type} [DecidableEq κ] {key : α → κ} {entries : List α} {wanted : κ}
    {entry : α} (distinct : (entries.map key).Nodup)
    (found : entries.find? (key · = wanted) = some entry) :
    entries.Perm (entries.filter (key · ≠ wanted) ++ [entry]) := by
  induction entries with
  | nil => cases found
  | cons first rest ih =>
    simp only [List.map_cons, List.nodup_cons] at distinct
    by_cases here : key first = wanted
    · have same : first = entry := by simpa [here] using found
      subst same
      subst here
      have untouched : rest.filter (key · ≠ key first) = rest := by
        refine List.filter_eq_self.mpr fun entry listed => ?_
        have other : key entry ≠ key first := fun same =>
          distinct.1 (List.mem_map.mpr ⟨entry, listed, same⟩)
        simpa using other
      simp only [List.filter_cons, ne_eq, not_true, decide_false, Bool.false_eq_true, if_false]
      rw [untouched]
      exact (List.perm_append_singleton ..).symm
    · simp only [List.find?_cons, here, decide_false] at found
      simp only [List.filter_cons, ne_eq, here, not_false_eq_true, decide_true, if_true,
        List.cons_append]
      exact (ih distinct.2 found).cons first

/-- The record of a restorable slot. -/
def StateSlot.record (slot : StateSlot) : Option RestorationRecord :=
  slot.restorationId.bind fun id => slot.restorationValue.map (⟨id, ·⟩)

/-- A restorable slot caches the encoding of its value. -/
def StateSlot.Cached (slot : StateSlot) : Prop :=
  slot.restorationId.isSome → encodeRestorationValue slot.type.kind slot.value =
    slot.restorationValue ∧ slot.restorationValue.isSome

namespace StateOwner

/-- The pending records and those of the restorable slots. -/
def records (owner : StateOwner) : List RestorationRecord :=
  owner.pending ++ owner.slots.filterMap (·.2.record)

/-- The records of all slots but one. -/
def others (owner : StateOwner) (key : SlotKey) : List RestorationRecord :=
  (owner.slots.filter (·.1 ≠ key)).filterMap (·.2.record)

variable {owner : StateOwner} {key : SlotKey} {slot : StateSlot}

theorem records_set (pending : List RestorationRecord) :
    records { owner.setSlot key slot with pending } =
      pending ++ (owner.others key ++ slot.record.toList) := by
  cases present : slot.record <;> simp [records, setSlot, others, List.filterMap_append, present]

theorem records_adopt {id : ByteString} {encoded : RestorationValue}
    (encodes : encodeRestorationValue slot.type.kind slot.value = some encoded)
    (pending : List RestorationRecord) : records { owner.adopt key slot id with pending } =
      pending ++ (owner.others key ++ [⟨id, encoded⟩]) := by
  refine (records_set pending).trans ?_
  simp [StateSlot.record, encodes]

theorem records_of_missing (missing : owner.findSlot key = none) :
    owner.records = owner.pending ++ owner.others key := by
  have none : owner.slots.filter (·.1 ≠ key) = owner.slots := by
    simp only [findSlot, Option.map_eq_none_iff, List.find?_eq_none] at missing
    exact List.filter_eq_self.mpr fun entry listed => by simpa using missing entry listed
  rw [records, others, none]

/-- The slots with a slot taken out and put at the end. -/
theorem slots_perm (distinct : (owner.slots.map (·.1)).Nodup)
    (found : owner.findSlot key = some slot) :
    owner.slots.Perm (owner.slots.filter (·.1 ≠ key) ++ [(key, slot)]) := by
  obtain ⟨entry, present, rfl⟩ := Option.map_eq_some_iff.mp found
  have here : entry.1 = key := by simpa using List.find?_some present
  subst here
  exact perm_taken_out distinct present

theorem records_of_found (distinct : (owner.slots.map (·.1)).Nodup)
    (found : owner.findSlot key = some slot) :
    owner.records.Perm (owner.pending ++ (owner.others key ++ slot.record.toList)) := by
  refine List.Perm.append_left _ ?_
  have moved := (slots_perm distinct found).filterMap (·.2.record)
  cases present : slot.record <;>
    simpa [others, List.filterMap_append, present] using moved

theorem others_sublist : (owner.others key).Sublist (owner.slots.filterMap (·.2.record)) :=
  List.filter_sublist.filterMap _

end StateOwner

/-- What holds of an owner between operations: slots belong to mounted elements, restorable
ones cache their values, and the records' ids are distinct and not empty. -/
structure Consistent (owner : StateOwner) : Prop where
  mounted : ∀ entry ∈ owner.slots, entry.1.1 ∈ owner.registry
  keys : (owner.slots.map (·.1)).Nodup
  cached : ∀ entry ∈ owner.slots, entry.2.Cached
  distinct : (owner.records.map (·.id)).Nodup
  named : ∀ record ∈ owner.records, record.id ≠ []

namespace Consistent
variable {owner : StateOwner}

/-- Setting a slot of a mounted element keeps the owner consistent if the new records do. -/
theorem set (consistent : Consistent owner) {key : SlotKey} {slot : StateSlot}
    {pending : List RestorationRecord} (mounted : key.1 ∈ owner.registry) (cached : slot.Cached)
    (distinct : ((pending ++ (owner.others key ++ slot.record.toList)).map (·.id)).Nodup)
    (named : ∀ record ∈ pending ++ (owner.others key ++ slot.record.toList), record.id ≠ []) :
    Consistent { owner.setSlot key slot with pending } where
  mounted entry listed := by
    simp only [setSlot, List.mem_append, List.mem_filter, List.mem_singleton] at listed
    obtain ⟨listed, _⟩ | rfl := listed
    · exact consistent.mounted entry listed
    · exact mounted
  keys := by
    simp only [setSlot, List.map_append, List.map_cons, List.map_nil]
    refine List.nodup_append.mpr ⟨consistent.keys.sublist (List.filter_sublist.map _),
      by simp, fun first kept second new => ?_⟩
    obtain ⟨entry, listed, rfl⟩ := List.mem_map.mp kept
    simp only [List.mem_singleton] at new
    subst new
    simpa using (List.mem_filter.mp listed).2
  cached entry listed := by
    simp only [setSlot, List.mem_append, List.mem_filter, List.mem_singleton] at listed
    obtain ⟨listed, _⟩ | rfl := listed
    · exact consistent.cached entry listed
    · exact cached
  distinct := by rwa [records_set]
  named := by rwa [records_set]

/-- Records that are only taken away keep the ids distinct. -/
theorem fewer (consistent : Consistent owner) {fewer : List RestorationRecord}
    (sublist : fewer.Sublist owner.records) :
    (fewer.map (·.id)).Nodup ∧ ∀ record ∈ fewer, record.id ≠ [] :=
  ⟨consistent.distinct.sublist (sublist.map _),
    fun record listed => consistent.named record (sublist.subset listed)⟩

/-- A plain declaration takes at most a record away. -/
theorem plain (consistent : Consistent owner) {key : SlotKey} {slot : StateSlot}
    (mounted : key.1 ∈ owner.registry) (plain : slot.restorationId = none) :
    Consistent (owner.setSlot key slot) := by
  have bare : slot.record = none := by simp [StateSlot.record, plain]
  have sublist : (owner.pending ++ (owner.others key ++ slot.record.toList)).Sublist
      owner.records := by
    simpa [bare, records] using others_sublist
  exact consistent.set mounted (by simp [StateSlot.Cached, plain])
    (consistent.fewer sublist).1 (consistent.fewer sublist).2

/-- A slot that is not the one declared does not use an id that is not in use. -/
theorem unused_elsewhere {id : ByteString} {key : SlotKey}
    (unused : owner.restorationIdInUse id key = false) :
    ∀ record ∈ owner.others key, record.id ≠ id := by
  rintro record elsewhere rfl
  obtain ⟨entry, kept, recorded⟩ := List.mem_filterMap.mp elsewhere
  obtain ⟨listed, other⟩ := List.mem_filter.mp kept
  obtain ⟨id, named, recorded⟩ := Option.bind_eq_some_iff.mp recorded
  obtain ⟨value, _, rfl⟩ := Option.map_eq_some_iff.mp recorded
  simp only [restorationIdInUse, List.any_eq_false] at unused
  simpa [named, other] using unused entry listed

/-- A restorable declaration gives its slot an id no other record has. -/
theorem adopt (consistent : Consistent owner) {key : SlotKey} {slot : StateSlot} {id : ByteString}
    (mounted : key.1 ∈ owner.registry) (restorable : slot.type.kind.restorable = true)
    (named : id ≠ []) (unused : owner.restorationIdInUse id key = false) :
    Consistent { owner.adopt key slot id with pending := owner.pending.filter (·.id ≠ id) } := by
  obtain ⟨encoded, encodes, -⟩ := decode_encode restorable slot.value
  have elsewhere := unused_elsewhere unused
  have sublist : (owner.pending.filter (·.id ≠ id) ++ owner.others key).Sublist owner.records :=
    List.filter_sublist.append others_sublist
  obtain ⟨distinct, allNamed⟩ := consistent.fewer sublist
  refine consistent.set mounted (fun _ => ⟨rfl, ?_⟩) ?_ ?_
  · simp [encodes]
  · simp only [StateSlot.record, Option.bind_some, encodes, Option.map_some, Option.toList_some]
    rw [← List.append_assoc, List.map_append]
    refine List.nodup_append.mpr ⟨distinct, by simp, fun first kept second new => ?_⟩
    obtain ⟨record, present, rfl⟩ := List.mem_map.mp kept
    obtain rfl : second = id := by simpa using new
    rcases List.mem_append.mp present with listed | listed
    · simpa using (List.mem_filter.mp listed).2
    · exact elsewhere record listed
  · intro record listed
    simp only [StateSlot.record, Option.bind_some, encodes, Option.map_some, Option.toList_some,
      ← List.append_assoc] at listed
    rcases List.mem_append.mp listed with listed | new
    · exact allNamed record listed
    · obtain rfl : record = ⟨id, encoded⟩ := by simpa using new
      exact named

/-- A slot that keeps its id, with the encoding of its value. -/
theorem write (consistent : Consistent owner) {key : SlotKey} {slot next : StateSlot}
    (found : owner.findSlot key = some slot) (cached : next.Cached)
    (same : next.restorationId = slot.restorationId) : Consistent (owner.setSlot key next) := by
  obtain ⟨entry, present, rfl⟩ := Option.map_eq_some_iff.mp found
  have listed := List.mem_of_find?_eq_some present
  have here : entry.1 = key := by simpa using List.find?_some present
  have ids : next.record.toList.map (·.id) = entry.2.record.toList.map (·.id) := by
    have before := consistent.cached entry listed
    cases named : next.restorationId with
    | none => simp [StateSlot.record, named, same ▸ named]
    | some id =>
      obtain ⟨-, some⟩ := before (by simp [← same, named])
      obtain ⟨-, nextSome⟩ := cached (by simp [named])
      obtain ⟨value, valued⟩ := Option.isSome_iff_exists.mp some
      obtain ⟨nextValue, nextValued⟩ := Option.isSome_iff_exists.mp nextSome
      simp [StateSlot.record, named, same ▸ named, valued, nextValued]
  have perm := (records_of_found consistent.keys found).map (·.id)
  have unchanged : (owner.pending ++ (owner.others key ++ next.record.toList)).map (·.id) =
      (owner.pending ++ (owner.others key ++ entry.2.record.toList)).map (·.id) := by
    simp only [List.map_append, ids]
  refine consistent.set (here ▸ consistent.mounted entry listed) cached ?_ ?_
  · rw [unchanged]
    exact perm.nodup_iff.mp consistent.distinct
  · intro record listed
    have named : record.id ∈ owner.records.map (·.id) :=
      perm.mem_iff.mpr (unchanged ▸ List.mem_map_of_mem listed)
    obtain ⟨other, listed, same⟩ := List.mem_map.mp named
    exact same ▸ consistent.named other listed

/-- Without an element, and its slots. -/
theorem unmount (consistent : Consistent owner) (element : ElementId) (isRoot : Bool) :
    Consistent (owner.unmount element isRoot) where
  mounted entry listed := by
    obtain ⟨listed, other⟩ := List.mem_filter.mp listed
    exact List.mem_filter.mpr ⟨consistent.mounted entry listed, other⟩
  keys := consistent.keys.sublist (List.filter_sublist.map _)
  cached entry listed := consistent.cached entry (List.mem_filter.mp listed).1
  distinct := (consistent.fewer ((List.filter_sublist.filterMap _).append_left _)).1
  named := (consistent.fewer ((List.filter_sublist.filterMap _).append_left _)).2

/-- Every action keeps the owner consistent. -/
theorem step (consistent : Consistent owner) {action : StateAction} {next : StateOwner}
    (stepped : stateMachine.step owner action = some next) : Consistent next := by
  obtain ⟨⟨outcome, after⟩, ran, rfl⟩ := Option.map_eq_some_iff.mp stepped
  cases action with
  | setReconciling | setFraming | setFormatting =>
    cases ran
    exact ⟨consistent.mounted, consistent.keys, consistent.cached, consistent.distinct,
      consistent.named⟩
  | mount isRoot =>
    cases ran
    exact ⟨fun entry listed => List.mem_append_left _ (consistent.mounted entry listed),
      consistent.keys, consistent.cached, consistent.distinct, consistent.named⟩
  | unmount element isRoot =>
    cases ran
    exact consistent.unmount element isRoot
  | declarePlain element name type initial =>
    simp only [performState, whereMounted] at ran
    split at ran
    case isFalse => cases ran
    case isTrue mounted =>
      rcases declare_plain_does owner element name type initial _ _ _ rfl ran with
        ⟨_, _, rfl⟩ | ⟨_, slot, plain, _, rfl⟩
      · exact consistent
      · exact consistent.plain (by simpa using mounted) plain
  | declareRestorable element name type initial id restorable =>
    simp only [performState, whereMounted] at ran
    split at ran
    case isFalse => cases ran
    case isTrue mounted =>
      rcases declare_restorable_does owner element name type initial id _ _ _ rfl ran with
        ⟨_, _, rfl⟩ | ⟨_, slot, rfl, named, unused, _, rfl⟩
      · exact consistent
      · exact consistent.adopt (by simpa using mounted) restorable named unused
  | write key type value =>
    rcases write_slot_does owner key type value _ _ _ rfl ran with
      ⟨_, _, rfl⟩ | ⟨_, rfl | ⟨slot, written, found, rfl, same, cached⟩⟩
    · exact consistent
    · exact consistent
    · exact consistent.write found cached same
  | restore snapshot =>
    rcases restore_state_does owner snapshot _ _ _ rfl ran with
      ⟨_, _, rfl⟩ | ⟨_, ⟨unmounted, distinct, named⟩, rfl⟩
    · exact consistent
    · have bare : owner.slots = [] := List.eq_nil_iff_forall_not_mem.mpr fun entry listed => by
        simpa [unmounted] using consistent.mounted entry listed
      exact ⟨consistent.mounted, consistent.keys, consistent.cached,
        by simpa [records, bare] using distinct, by simpa [records, bare] using named⟩
  | discard =>
    rcases discard_does owner _ _ _ rfl ran with ⟨_, _, rfl⟩ | ⟨_, rfl⟩
    · exact consistent
    · have fewer := consistent.fewer (List.sublist_append_right owner.pending _)
      exact ⟨consistent.mounted, consistent.keys, consistent.cached, fewer.1, fewer.2⟩

end Consistent

/-! ### Saving -/

/-- The live records of slots that cache their values. -/
theorem live_records_eq {slots : List (SlotKey × StateSlot)}
    (cached : ∀ entry ∈ slots, entry.2.Cached) :
    liveRecords slots = .ok (slots.filterMap (·.2.record)) := by
  induction slots with
  | nil => rfl
  | cons entry rest ih =>
    specialize ih fun other listed => cached other (List.mem_cons_of_mem _ listed)
    have first := cached entry List.mem_cons_self
    obtain ⟨key, slot⟩ := entry
    cases named : slot.restorationId with
    | none => simp [liveRecords, named, ih, StateSlot.record]
    | some id =>
      obtain ⟨value, valued⟩ := Option.isSome_iff_exists.mp (first (by simp [named])).2
      replace valued : slot.restorationValue = some value := valued
      simp [liveRecords, named, valued, ih, StateSlot.record, Except.map]

/-- An adjacent pair of a list without duplicates is a pair of different entries. -/
theorem adjacent_differ {records : List RestorationRecord}
    (distinct : (records.map (·.id)).Nodup) :
    ((records.zip records.tail).any fun pair => pair.1.id = pair.2.id) = false := by
  induction records with
  | nil => rfl
  | cons first rest ih =>
    cases rest with
    | nil => rfl
    | cons second rest =>
      simp only [List.map_cons, List.nodup_cons, List.mem_cons, not_or] at distinct ih
      simp only [List.tail_cons, List.zip_cons_cons, List.any_cons, Bool.or_eq_false_iff,
        decide_eq_false_iff_not]
      exact ⟨distinct.1.1, ih distinct.2⟩

/-- Saving outside of an operation gives the records in the order of their ids. -/
theorem save_eq {owner : StateOwner} (consistent : Consistent owner) (idle : owner.busy = false) :
    saveRestorationState owner = .ok (owner.records.insertionSort recordLE) := by
  have sorted : ((owner.records.insertionSort recordLE).map (·.id)).Nodup :=
    ((List.perm_insertionSort recordLE _).map _).nodup_iff.mpr consistent.distinct
  rw [saveRestorationState, idle, live_records_eq consistent.cached]
  simp only [Bool.false_eq_true, if_false]
  exact if_neg (by rw [← records, adjacent_differ sorted]; simp)

instance : Std.Total recordLE := ⟨fun first _ => le_total (first.id.map UInt8.toNat) _⟩

instance : IsTrans RestorationRecord recordLE :=
  ⟨fun _ _ _ => le_trans (α := List Nat)⟩

/-- The same records with distinct ids are saved in the same order. -/
theorem sorted_eq {first second : List RestorationRecord} (perm : first.Perm second)
    (distinct : (first.map (·.id)).Nodup) :
    first.insertionSort recordLE = second.insertionSort recordLE := by
  have all : ((first.insertionSort recordLE).map (·.id)).Nodup :=
    ((List.perm_insertionSort recordLE _).map _).nodup_iff.mpr distinct
  have both := (List.perm_insertionSort recordLE first).trans
    (perm.trans (List.perm_insertionSort recordLE second).symm)
  refine List.Perm.eq_of_pairwise (fun one other listed also below above => ?_)
    (List.pairwise_insertionSort recordLE first) (List.pairwise_insertionSort recordLE second) both
  have bytes := le_antisymm below above
  have same : one.id = other.id :=
    List.map_injective_iff.mpr (fun _ _ => UInt8.toNat_inj.mp) bytes
  exact List.inj_on_of_nodup_map all listed (both.mem_iff.mpr also) same

/-! ### Restoring -/

/-- Components that declare each slot in one way, plain or restorable under one id of the
snapshot, that do not write, and whose restorable slots stay. -/
def Follows (assigned : SlotKey → Option ByteString) (records : List RestorationRecord)
    (owner : StateOwner) : StateAction → Prop
  | .setReconciling _ | .setFraming _ | .setFormatting _ | .mount _ => True
  | .unmount element _ => ∀ entry ∈ owner.slots, entry.1.1 = element → entry.2.restorationId = none
  | .declarePlain element name _ _ => assigned (element, hashName name) = none
  | .declareRestorable element name _ _ id _ =>
    assigned (element, hashName name) = some id ∧ id ∈ records.map (·.id)
  | .write .. | .restore _ | .discard => False

/-- An owner whose slots are declared as they are assigned and whose records are the
snapshot's. -/
structure Restored (assigned : SlotKey → Option ByteString) (records : List RestorationRecord)
    (owner : StateOwner) : Prop where
  consistent : Consistent owner
  assigned : ∀ entry ∈ owner.slots, entry.2.restorationId = assigned entry.1
  same : owner.records.Perm records

namespace Restored
variable {assigned : SlotKey → Option ByteString} {snapshot : List RestorationRecord}
  {owner : StateOwner}

theorem set_assigned (restored : Restored assigned snapshot owner) {key : SlotKey}
    {slot : StateSlot} (declared : slot.restorationId = assigned key) :
    ∀ entry ∈ (owner.setSlot key slot).slots, entry.2.restorationId = assigned entry.1 := by
  intro entry listed
  simp only [setSlot, List.mem_append, List.mem_filter, List.mem_singleton] at listed
  obtain ⟨listed, _⟩ | rfl := listed
  · exact restored.assigned entry listed
  · exact declared

theorem found_assigned (restored : Restored assigned snapshot owner) {key : SlotKey}
    {slot : StateSlot} (found : owner.findSlot key = some slot) :
    slot.Cached ∧ slot.restorationId = assigned key := by
  obtain ⟨entry, present, rfl⟩ := Option.map_eq_some_iff.mp found
  have listed := List.mem_of_find?_eq_some present
  have here : entry.1 = key := by simpa using List.find?_some present
  exact ⟨restored.consistent.cached entry listed, here ▸ restored.assigned entry listed⟩

/-- A slot that is always plain has no record before and after its declaration. -/
theorem plain (restored : Restored assigned snapshot owner) {key : SlotKey} {slot : StateSlot}
    (mounted : key.1 ∈ owner.registry) (plain : slot.restorationId = none)
    (declared : assigned key = none) : Restored assigned snapshot (owner.setSlot key slot) where
  consistent := restored.consistent.plain mounted plain
  assigned := restored.set_assigned (plain.trans declared.symm)
  same := by
    have bare : slot.record = none := by simp [StateSlot.record, plain]
    have after := @records_set owner key slot owner.pending
    refine List.Perm.trans ?_ restored.same
    rw [show (owner.setSlot key slot).records = _ from after]
    cases found : owner.findSlot key with
    | none => simp [records_of_missing found, bare]
    | some before =>
      have none : before.record = none := by
        simp [StateSlot.record, (restored.found_assigned found).2, declared]
      simpa [bare, none] using (records_of_found restored.consistent.keys found).symm

/-- A record is pending or belongs to a slot, so the slot that claims its id has its value. -/
theorem adopt (restored : Restored assigned snapshot owner) {key : SlotKey} {slot : StateSlot}
    {id : ByteString} (mounted : key.1 ∈ owner.registry)
    (restorable : slot.type.kind.restorable = true) (named : id ≠ [])
    (unused : owner.restorationIdInUse id key = false) (claimed : ClaimedSlot owner key id slot)
    (declared : assigned key = some id) (known : id ∈ snapshot.map (·.id)) :
    Restored assigned snapshot
      { owner.adopt key slot id with pending := owner.pending.filter (·.id ≠ id) } where
  consistent := restored.consistent.adopt mounted restorable named unused
  assigned := restored.set_assigned declared.symm
  same := by
    have keys := restored.consistent.keys
    have distinct := restored.consistent.distinct
    obtain ⟨encoded, encodes, -⟩ := decode_encode restorable slot.value
    refine (List.Perm.of_eq (records_adopt encodes _)).trans (List.Perm.trans ?_ restored.same)
    rcases claimed with found | ⟨missing, _, taken⟩
    · -- the slot has had this id all along
      obtain ⟨cached, same⟩ := restored.found_assigned found
      rw [declared] at same
      have recorded : slot.record = some ⟨id, encoded⟩ := by
        simp [StateSlot.record, same, ← (cached (by simp [same])).1, encodes]
      have before := records_of_found keys found
      simp only [recorded, Option.toList_some] at before
      have absent : owner.pending.filter (·.id ≠ id) = owner.pending := by
        refine List.filter_eq_self.mpr fun record listed => ?_
        have others := (before.map (·.id)).nodup_iff.mp distinct
        simp only [List.map_append, List.nodup_append] at others
        have other := others.2.2 record.id (List.mem_map_of_mem listed) id (by simp)
        simpa using other
      rw [absent]
      exact before.symm
    · -- the record is pending
      have before := records_of_missing missing
      have pending : id ∈ owner.pending.map (·.id) := by
        have listed := (restored.same.map (·.id)).mem_iff.mpr known
        rw [before, List.map_append, List.mem_append] at listed
        refine listed.resolve_right fun elsewhere => ?_
        obtain ⟨record, listed, same⟩ := List.mem_map.mp elsewhere
        exact Consistent.unused_elsewhere unused record listed same
      obtain ⟨record, found⟩ : ∃ record, owner.pending.find? (·.id = id) = some record := by
        obtain ⟨record, listed, same⟩ := List.mem_map.mp pending
        exact Option.isSome_iff_exists.mp
          (List.find?_isSome.mpr ⟨record, listed, by simpa using same⟩)
      have value : encoded = record.value :=
        Option.some.inj (encodes.symm.trans (taken record found))
      have here : record.id = id := by simpa using List.find?_some found
      have recorded : record = ⟨id, encoded⟩ := by rw [value, ← here]
      have pendingIds : (owner.pending.map (·.id)).Nodup :=
        (restored.consistent.fewer (List.sublist_append_left _ _)).1
      have moved := perm_taken_out pendingIds found
      rw [before, ← recorded]
      refine List.Perm.trans ?_ (moved.append_right _).symm
      rw [List.append_assoc]
      exact List.Perm.append_left _ List.perm_append_comm

/-- Every action of such components keeps the records. -/
theorem step (restored : Restored assigned snapshot owner) {action : StateAction}
    {next : StateOwner} (follows : Follows assigned snapshot owner action)
    (stepped : stateMachine.step owner action = some next) : Restored assigned snapshot next := by
  have consistent := restored.consistent.step stepped
  obtain ⟨⟨outcome, after⟩, ran, rfl⟩ := Option.map_eq_some_iff.mp stepped
  cases action with
  | setReconciling | setFraming | setFormatting | mount =>
    cases ran
    exact ⟨consistent, restored.assigned, restored.same⟩
  | unmount element isRoot =>
    cases ran
    refine ⟨consistent, fun entry listed => restored.assigned entry (List.mem_filter.mp listed).1,
      List.Perm.trans (List.Perm.append_left _ (List.Perm.of_eq ?_)) restored.same⟩
    change (owner.slots.filter (·.1.1 ≠ element)).filterMap (·.2.record) = _
    rw [List.filterMap_filter]
    refine List.filterMap_congr fun entry listed => ?_
    by_cases gone : entry.1.1 = element
    · simp [gone, StateSlot.record, follows entry listed gone]
    · simp [gone]
  | declarePlain element name type initial =>
    simp only [performState, whereMounted] at ran
    split at ran
    case isFalse => cases ran
    case isTrue mounted =>
      rcases declare_plain_does owner element name type initial _ _ _ rfl ran with
        ⟨_, _, rfl⟩ | ⟨_, slot, plain, _, rfl⟩
      · exact restored
      · exact restored.plain (by simpa using mounted) plain follows
  | declareRestorable element name type initial id restorable =>
    simp only [performState, whereMounted] at ran
    split at ran
    case isFalse => cases ran
    case isTrue mounted =>
      rcases declare_restorable_does owner element name type initial id _ _ _ rfl ran with
        ⟨_, _, rfl⟩ | ⟨_, slot, rfl, named, unused, claimed, rfl⟩
      · exact restored
      · exact restored.adopt (by simpa using mounted) restorable named unused claimed follows.1
          follows.2
  | write | restore | discard => exact follows.elim

/-- What is saved is the snapshot. -/
theorem saves (restored : Restored assigned snapshot owner) (idle : owner.busy = false)
    (sorted : snapshot.insertionSort recordLE = snapshot) :
    saveRestorationState owner = .ok snapshot := by
  rw [save_eq restored.consistent idle, sorted_eq restored.same restored.consistent.distinct,
    sorted]

end Restored

/-- Records with distinct names that are not empty are staged. -/
theorem stage_records_of_distinct {owner : StateOwner} (staged snapshot : List RestorationRecord)
    (distinct : ((staged ++ snapshot).map (·.id)).Nodup)
    (named : ∀ record ∈ snapshot, record.id ≠ []) :
    stageRecords staged snapshot owner = some (.ok (staged ++ snapshot), owner) := by
  induction snapshot generalizing staged with
  | nil => rw [List.append_nil]; rfl
  | cons record rest ih =>
    have nonempty : record.id.isEmpty = false := by
      simpa using named record List.mem_cons_self
    have fresh : (staged.any fun other => other.id = record.id) = false := by
      simp only [List.map_append, List.map_cons, List.nodup_append] at distinct
      refine List.any_eq_false.mpr fun other listed => ?_
      simpa using distinct.2.2 other.id (List.mem_map_of_mem listed) record.id List.mem_cons_self
    rw [List.append_cons] at distinct
    rw [stageRecords, nonempty, fresh, List.append_cons staged record rest]
    exact ih (staged ++ [record]) distinct
      fun other listed => named other (List.mem_cons_of_mem _ listed)

/-- A fresh owner takes a snapshot of distinct names that are not empty. -/
theorem fresh_owner_restores {snapshot : List RestorationRecord}
    (distinct : (snapshot.map (·.id)).Nodup) (named : ∀ record ∈ snapshot, record.id ≠ []) :
    restoreState snapshot {} = some (.ok (), { pending := snapshot }) := by
  change Run.bind (stageRecords [] snapshot) _ {} = _
  unfold Run.bind
  rw [stage_records_of_distinct [] snapshot distinct named]
  rfl

theorem reachable_consistent {owner : StateOwner} (reached : Reachable stateMachine owner) :
    Consistent owner := by
  refine reached.invariant Consistent ?_ fun _ _ _ consistent _ stepped => consistent.step stepped
  rintro state rfl
  exact ⟨by simp, by simp, by simp, by simp [records], by simp [records]⟩

/-- A snapshot with distinct names, just restored. -/
theorem Restored.first {snapshot : List RestorationRecord} (assigned : SlotKey → Option ByteString)
    (distinct : (snapshot.map (·.id)).Nodup) (named : ∀ record ∈ snapshot, record.id ≠ []) :
    Restored assigned snapshot { pending := snapshot } :=
  ⟨⟨by simp, by simp, by simp, by simpa [records], by simpa [records]⟩, by simp, by simp [records]⟩

/-- A call that throws leaves the pending records. -/
theorem Unless.pending_kept {owner after : StateOwner} {done : StateOwner → Prop}
    {failure : Failure} (held : Unless owner done (.error failure) after) :
    after.pending = owner.pending := by
  rcases held with ⟨_, _, rfl⟩ | ⟨returned, _⟩
  · rfl
  · cases returned

/-- A snapshot holds distinct records, the encodings of the restorable slots' values among
them. A fresh owner takes it and saves the same, and goes on to while components declare
each slot in one way, plain or under one id of the snapshot, and do not write. A snapshot
or a declaration that is rejected leaves the pending records. -/
theorem saved_state_restores {owner : StateOwner} (reached : Reachable stateMachine owner) :
    (owner.busy = false → ∃ snapshot, saveRestorationState owner = .ok snapshot ∧
      (snapshot.map (·.id)).Nodup ∧ (∀ record ∈ snapshot, record.id ≠ []) ∧
      (∀ record ∈ owner.pending, record ∈ snapshot) ∧
      (∀ entry ∈ owner.slots, ∀ id, entry.2.restorationId = some id → ∃ value,
        encodeRestorationValue entry.2.type.kind entry.2.value = some value ∧
          ⟨id, value⟩ ∈ snapshot) ∧
      ∃ fresh, restoreState snapshot {} = some (.ok (), fresh) ∧
        saveRestorationState fresh = .ok snapshot ∧
        ∀ assigned later, Reaches (stateMachine.startedIn fresh) (Follows assigned snapshot) later →
          later.busy = false → saveRestorationState later = .ok snapshot) ∧
      (∀ snapshot failure after,
        restoreState snapshot owner = some (.error failure, after) →
          after.pending = owner.pending) ∧
      ∀ element name type initial id failure after,
        declareRestorable element name type initial id owner = some (.error failure, after) →
          after.pending = owner.pending := by
  have consistent := reachable_consistent reached
  have perm := List.perm_insertionSort recordLE owner.records
  have distinct := (perm.map (·.id)).nodup_iff.mpr consistent.distinct
  have named : ∀ record ∈ owner.records.insertionSort recordLE, record.id ≠ [] :=
    fun record listed => consistent.named record (perm.mem_iff.mp listed)
  have sorted := (List.pairwise_insertionSort recordLE owner.records).insertionSort_eq
  refine ⟨fun idle => ⟨_, save_eq consistent idle, distinct, named, fun record listed => ?_,
    fun entry listed id name => ?_, _, fresh_owner_restores distinct named, ?_,
    fun assigned later followed quiet => ?_⟩, fun snapshot failure after ran => ?_,
    fun element name type initial id failure after ran => ?_⟩
  · exact perm.mem_iff.mpr (List.mem_append_left _ listed)
  · obtain ⟨encodes, some⟩ := consistent.cached entry listed (by simp [name])
    obtain ⟨value, valued⟩ := Option.isSome_iff_exists.mp some
    refine ⟨value, encodes.trans valued, perm.mem_iff.mpr (List.mem_append_right _ ?_)⟩
    exact List.mem_filterMap.mpr ⟨entry, listed, by simp [StateSlot.record, name, valued]⟩
  · exact (Restored.first (fun _ => none) distinct named).saves rfl sorted
  · have restored : Restored assigned (owner.records.insertionSort recordLE) later := by
      refine followed.invariant (Restored assigned _) ?_ ?_
      · rintro state rfl
        exact .first assigned distinct named
      · exact fun _ _ _ restored follows stepped => restored.step follows stepped
    exact restored.saves quiet sorted
  · exact (restore_state_does owner snapshot _ _ _ rfl ran).pending_kept
  · exact (declare_restorable_does owner element name type initial id _ _ _ rfl ran).pending_kept

section Counter

private def countName : ByteString := [99]
private def appId : ByteString := [97]
private def intType : StateType := ⟨0, .signed 32⟩
private def counterBuilds : List StateAction := [.setReconciling true, .mount true,
  .declareRestorable 1 countName intType ⟨0, by decide⟩ appId rfl, .setReconciling false,
  .write (1, hashName countName) intType ⟨5, by decide⟩]

theorem counted_state_restores : ∃ owner snapshot,
    stateMachine.run {} counterBuilds = some owner ∧
      saveRestorationState owner = .ok snapshot ∧ ∃ fresh,
        restoreState snapshot {} = some (.ok (), fresh) ∧
          saveRestorationState fresh = .ok snapshot := by
  have idle : (stateMachine.run {} counterBuilds).map busy = some false := rfl
  obtain ⟨owner, ran, quiet⟩ := Option.map_eq_some_iff.mp idle
  have reached : Reachable stateMachine owner := .run (.start rfl) ran
  obtain ⟨snapshot, saved, _, _, _, _, fresh, restored, again, _⟩ :=
    (saved_state_restores reached).1 quiet
  exact ⟨owner, snapshot, ran, saved, fresh, restored, again⟩

/-- A component that declares its state plain and then, in the same build, restorable saves
the initial value: the slot that is there supersedes the record. -/
theorem established_state_supersedes_record :
    (stateMachine.run {} counterBuilds).map saveRestorationState =
        some (.ok [⟨appId, .int64 5⟩]) ∧
      restoreState [⟨appId, .int64 5⟩] {} = some (.ok (), { pending := [⟨appId, .int64 5⟩] }) ∧
      (stateMachine.run { pending := [⟨appId, .int64 5⟩] } [.setReconciling true, .mount true,
        .declarePlain 1 countName intType ⟨0, by decide⟩,
        .declareRestorable 1 countName intType ⟨0, by decide⟩ appId rfl,
        .setReconciling false]).map saveRestorationState = some (.ok [⟨appId, .int64 0⟩]) :=
  ⟨rfl, rfl, rfl⟩

end Counter

end Dui
