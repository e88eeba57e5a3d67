import Ezilla.Vnm.LeaseFailures

/-!
# The search position of a fixed network

A fixed network keeps the position of its last search as an iterator of the map of leases. Only
`get` moves it. An entry that is added or changed leaves it where it is, and an entry that is
erased takes it along.

* `VnLeases.cursor`: the iterator, which most operations do not touch;
* `VnLeases.Elsewhere`: the removals that do not erase the lease at the iterator;
* `VnLeases.inside_of_reached`: in runs of such removals the iterator is the end of the map or at
  one of its leases.
-/

namespace Ezilla

open Transition

namespace FixedLeases

variable {f f' : FixedLeases} {db : Bool} {vid : Int}

theorem current_add {ip mac : String} {used : Bool} (added : f.add db ip mac vid used = .ok f') :
    f'.current = f.current := by
  unfold add at added
  dsimp only at added
  repeat' split at added
  all_goals cases added
  all_goals rfl

theorem current_addLeases {lease? : Option (String × String)} :
    (f.addLeases db lease?).2.current = f.current := by
  unfold addLeases
  split
  · rfl
  · split
    · rfl
    · rename_i added
      have same := current_add added
      exact same

theorem current_unset {ip : String} : (f.unset db ip).current = f.current := by
  unfold unset
  repeat' split
  all_goals rfl

theorem current_set {ip : String} : (f.set db vid ip).2.current = f.current := by
  unfold set
  repeat' split
  all_goals rfl

/-- The search itself leaves a position from where the next one can start. -/
theorem get_inside {out : Except LeaseError Nat × FixedLeases} (inside : f.Valid f.current)
    (got : f.get db vid = some out) : out.2.Valid out.2.current := by
  unfold get at got
  split at got
  · cases got
    exact inside
  · rename_i nonempty
    have searched := search_spec (n := f.size) nonempty inside
    cases ended : f.search f.size f.current with
    | undefined =>
      rw [ended] at searched
      exact absurd searched id
    | exhausted c =>
      rw [ended] at got searched
      cases got
      exact searched
    | found ip lease =>
      rw [ended] at got
      cases got
      exact next_valid _ ip

theorem get_defined (inside : f.Valid f.current) : f.get db vid ≠ none := by
  unfold get
  split
  · exact Option.some_ne_none _
  · rename_i nonempty
    have searched := search_spec (n := f.size) nonempty inside
    split
    · rename_i ended
      rw [ended] at searched
      exact absurd searched id
    · exact Option.some_ne_none _
    · exact Option.some_ne_none _

/-- A new network has not been searched. -/
theorem current_new {macPrefix : Nat} {dbs : Nat → Bool} {vectorLeases : List (String × String)} :
    (new macPrefix dbs vectorLeases).current = .past := by
  unfold new
  refine List.foldlRecOn (motive := fun f : FixedLeases => f.current = .past) _ _ rfl ?_
  intro f past row _
  dsimp only
  split
  · rename_i added
    exact (current_add added).trans past
  · exact past

/-- The lease at the search position is not erased. -/
def KeepsCurrent (f : FixedLeases) (db : Bool) (ip : String) : Prop :=
  ∀ numIp lease, ipToNumber ip = some numIp → f.current = .on numIp →
    f.leases.lookup numIp = some lease → lease.used = true ∨ db = false

theorem current_removeLeases {ip? : Option String}
    (keeps : ∀ ip, ip? = some ip → f.KeepsCurrent db ip) :
    (f.removeLeases db ip?).2.current = f.current := by
  unfold removeLeases
  split
  · rfl
  · rename_i ip
    split
    · rfl
    · rename_i f' removed
      unfold remove at removed
      split at removed
      · cases removed
      · rename_i numIp read
        split at removed
        · cases removed
        · rename_i lease found
          split at removed
          · cases removed
          · rename_i unused
            split at removed
            · rename_i done
              cases removed
              refine if_neg fun here => ?_
              rcases keeps ip rfl numIp lease read here found with used | failed
              · exact unused used
              · rw [failed] at done
                cases done
            · cases removed

end FixedLeases

namespace VnLeases

variable {v w : VnLeases} {op : LeaseOp} {vid : Int} {db : Bool}

/-- The search position of a fixed network. -/
def cursor : VnLeases → LeaseCursor
  | .ranged _ => .past
  | .fixed f => f.current

/-- The search position is the end of the map or one of its leases. -/
def Inside : VnLeases → Prop
  | .ranged _ => True
  | .fixed f => f.Valid f.current

/-- An operation that does not erase the lease at the search position. -/
def Elsewhere (v : VnLeases) (l : LeaseOp × (Nat → LeaseAnswer)) : Prop :=
  match v, l.1 with
  | .fixed f, .removeLeases (some ip) => f.KeepsCurrent (l.2 0).ok ip
  | _, _ => True

/-- A network with leases that were read from the database. -/
inductive Started : VnLeases → Prop where
  | created {v : VnLeases} (created : CreatedAnswered v) : Started v
  | selected (macPrefix : Nat) (nUsed : Int) (rows : LeaseMap)
      (keyed : ∀ k lease, rows.lookup k = some lease → lease.ip = k) :
      Started (.fixed { leases := rows, nUsed, macPrefix, rows, size := rows.keys.length,
                        current := .past })

theorem cursor_restoreCount (a : LeaseAnswer) : (v.restoreCount w a).cursor = w.cursor := by
  unfold restoreCount
  split <;> rfl

theorem inside_restoreCount {a : LeaseAnswer} (inside : w.Inside) :
    (v.restoreCount w a).Inside := by
  unfold restoreCount
  split
  · exact inside
  · exact inside

theorem cursor_set {ip : String} : (v.set db vid ip).2.cursor = v.cursor := by
  cases v with
  | ranged r => rfl
  | fixed f => exact FixedLeases.current_set

theorem cursor_release {ip : String} : (v.release db ip).cursor = v.cursor := by
  cases v with
  | ranged r => rfl
  | fixed f => exact FixedLeases.current_unset

theorem cursor_holdLeases {ip? : Option String} : (v.holdLeases db ip?).2.cursor = v.cursor := by
  unfold holdLeases
  split
  · rfl
  · rename_i ip
    have held := @cursor_set v (-1) db ip
    split
    · rfl
    · split
      · rename_i out
        rw [out] at held
        exact held
      · rename_i out
        rw [out] at held
        exact held

theorem cursor_freeLeases {ip? : Option String} : (v.freeLeases db ip?).2.cursor = v.cursor := by
  unfold freeLeases
  split
  · rfl
  · split
    · rfl
    · split
      · rfl
      · split
        · rfl
        · exact cursor_release

theorem Kept.inside (kept : v.Kept) (there : v.cursor ≠ .dangling) : v.Inside := by
  cases v with
  | ranged r => trivial
  | fixed f => exact kept.current.resolve_right there

theorem Inside.cursor_ne (inside : v.Inside) : v.cursor ≠ .dangling := by
  cases v with
  | ranged r => exact nofun
  | fixed f =>
    intro dangling
    have inside : f.Valid f.current := inside
    have dangling : f.current = .dangling := dangling
    rw [dangling] at inside
    exact inside

/-- Every operation but a search leaves the position, unless it erases the lease there. -/
theorem cursor_operate {answers : Nat → LeaseAnswer} {error? : Option LeaseError}
    (search : ∀ vid, op ≠ .get vid) (elsewhere : v.Elsewhere (op, answers))
    (done : v.operate op answers = some (error?, w)) : w.cursor = v.cursor := by
  cases op with
  | get vid => exact absurd rfl (search vid)
  | set vid ip =>
    cases done
    exact (cursor_restoreCount _).trans cursor_set
  | release ip =>
    cases done
    exact (cursor_restoreCount _).trans cursor_release
  | addLeases lease? =>
    cases v with
    | ranged r =>
      cases done
      rfl
    | fixed f =>
      cases done
      exact FixedLeases.current_addLeases
  | removeLeases ip? =>
    cases v with
    | ranged r =>
      cases done
      rfl
    | fixed f =>
      cases done
      refine FixedLeases.current_removeLeases fun ip is => ?_
      cases is
      exact elsewhere
  | holdLeases ip? =>
    cases done
    exact (cursor_restoreCount _).trans cursor_holdLeases
  | freeLeases ip? =>
    cases done
    exact (cursor_restoreCount _).trans cursor_freeLeases

/-- One operation keeps the search position inside. -/
theorem Inside.step {l : LeaseOp × (Nat → LeaseAnswer)} (kept : v.Kept) (inside : v.Inside)
    (taken : Guarded Elsewhere StepAnswered v l w) : w.Inside := by
  obtain ⟨elsewhere, error?, done⟩ := taken
  obtain ⟨op, answers⟩ := l
  by_cases search : ∃ vid, op = .get vid
  · obtain ⟨vid, rfl⟩ := search
    have done : (v.getAnswered answers vid).map (fun out => (reported out.1, out.2)) =
        some (error?, w) := done
    obtain ⟨_, answered, is⟩ := Option.map_eq_some_iff.mp done
    cases is
    obtain ⟨moved, got, rfl⟩ := Option.map_eq_some_iff.mp answered
    refine inside_restoreCount ?_
    cases v with
    | ranged r =>
      cases got
      trivial
    | fixed f =>
      obtain ⟨out, searched, rfl⟩ := Option.map_eq_some_iff.mp got
      exact FixedLeases.get_inside inside searched
  · have same := cursor_operate (fun vid is => search ⟨vid, is⟩) elsewhere done
    refine (operate_kept kept done).inside ?_
    rw [same]
    exact inside.cursor_ne

/-- What every operation keeps if it does not erase the lease at the search position. -/
structure Ready (v : VnLeases) : Prop where
  kept : v.Kept
  inside : v.Inside

theorem Started.ready (started : Started v) : v.Ready := by
  cases started with
  | created created =>
    cases created with
    | ranged => exact ⟨RangedLeases.new_good, trivial⟩
    | fixed macPrefix dbs vectorLeases =>
      have past := @FixedLeases.current_new macPrefix dbs vectorLeases
      refine ⟨FixedLeases.new_kept, Kept.inside FixedLeases.new_kept fun dangling => ?_⟩
      have dangling : (FixedLeases.new macPrefix dbs vectorLeases).current = .dangling := dangling
      rw [past] at dangling
      cases dangling
  | selected _ _ _ keyed => exact ⟨⟨⟨keyed, .inl trivial⟩, rfl⟩, trivial⟩

/-- In every run that never erases the lease at the search position, that position is the end of
the map or one of its leases, and every operation is defined. -/
theorem inside_of_reached (reached : Reachable Started (Guarded Elsewhere StepAnswered) v) :
    v.Inside ∧ ∀ op answers, v.operate op answers ≠ none := by
  have ready : v.Ready := by
    refine reached.invariant (fun _ => Started.ready) fun v l w ready taken => ?_
    obtain ⟨error?, done⟩ := taken.2
    exact ⟨operate_kept ready.kept done, ready.inside.step ready.kept taken⟩
  refine ⟨ready.inside, fun op answers => ?_⟩
  cases op with
  | get vid =>
    cases v with
    | ranged r => exact Option.some_ne_none _
    | fixed f =>
      intro undefined
      have lost := Option.map_eq_none_iff.mp (Option.map_eq_none_iff.mp undefined)
      exact FixedLeases.get_defined ready.inside (Option.map_eq_none_iff.mp lost)
  | set vid ip => exact Option.some_ne_none _
  | release ip => exact Option.some_ne_none _
  | addLeases lease? => cases v <;> exact Option.some_ne_none _
  | removeLeases ip? => cases v <;> exact Option.some_ne_none _
  | holdLeases ip? => exact Option.some_ne_none _
  | freeLeases ip? => exact Option.some_ne_none _

/-- A network of three leases. -/
def threeLeases : VnLeases :=
  .fixed (FixedLeases.new 512 answers [("10.0.0.1", ""), ("10.0.0.2", ""), ("10.0.0.3", "")])

/-- The second lease is removed before there was a search. -/
theorem inside_of_reached_removal : ∃ v,
    Reachable Started (Guarded Elsewhere StepAnswered) v ∧ v.Inside ∧
      ∀ op answers, v.operate op answers ≠ none := by
  have start : Reachable Started (Guarded Elsewhere StepAnswered) threeLeases :=
    .init (.created (.fixed 512 answers _))
  have elsewhere : threeLeases.Elsewhere (.removeLeases (some "10.0.0.2"), fun _ => .done) := by
    intro numIp lease _ here _
    rw [FixedLeases.current_new] at here
    cases here
  have reached := start.step ⟨elsewhere, _, rfl⟩
  exact ⟨_, reached, inside_of_reached reached⟩

/-- After a search the lease at the new position is removed, and the next search follows it. -/
theorem removed_entry_followed : ∃ v, Reachable Started StepAnswered v ∧ ¬ v.Inside ∧
    v.operate (.get 7) (fun _ => .done) = none := by
  have run : ([(LeaseOp.get 7, fun _ => LeaseAnswer.done),
      (.removeLeases (some "10.0.0.2"), fun _ => .done)].foldlM
        (fun v l => (VnLeases.operate v l.1 l.2).map Prod.snd) threeLeases).map
      (fun v => (v.cursor, (v.operate (.get 7) fun _ => .done).isNone)) =
      some (.dangling, true) := by decide +kernel
  obtain ⟨v, reached, is⟩ := Option.map_eq_some_iff.mp run
  refine ⟨v, .foldlM _ _ (fun v l w taken => ?_) (.init (.created (.fixed 512 answers _))) reached,
    fun inside => ?_, ?_⟩
  · obtain ⟨out, done, rfl⟩ := Option.map_eq_some_iff.mp taken
    exact ⟨out.1, done⟩
  · exact inside.cursor_ne (congrArg Prod.fst is)
  · exact Option.isNone_iff_eq_none.mp (congrArg Prod.snd is)

end VnLeases

end Ezilla
