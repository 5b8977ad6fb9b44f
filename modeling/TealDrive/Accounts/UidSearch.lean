import TealDrive.Accounts.Gaps

namespace TealDrive

open Outcome Faults

/-!
# The search for a uid

The allocator tries the uids of its range that no foreign range covers, from a
cursor on and then from the start.  The gaps between the foreign ranges list
exactly these uids, each of them once.  The search is cut off after 1024 of them,
whatever the others are.
-/

/-! ## The uids that are tried -/

theorem numbersIn_sorted (first last : Nat) : (numbersIn first last).Pairwise (· < ·) :=
  List.pairwise_lt_range'

/-- Lists of numbers in order that hold the same numbers are the same. -/
theorem eq_of_sorted {first second : List Nat} (left : first.Pairwise (· < ·))
    (right : second.Pairwise (· < ·)) (same : forall number, number ∈ first ↔ number ∈ second) :
    first = second :=
  left.eq_of_mem_iff right same

theorem Tidy.sorted {ranges : List (Nat × Nat)} (tidy : Tidy ranges) :
    (ranges.flatMap (fun range => numbersIn range.1 range.2)).Pairwise (· < ·) := by
  refine List.pairwise_flatMap.mpr ⟨fun range _ => numbersIn_sorted range.1 range.2, ?_⟩
  refine tidy.apart.imp ?_
  intro first second apart number inFirst other inSecond
  have ends := (mem_numbersIn.mp inFirst).2
  have starts := (mem_numbersIn.mp inSecond).1
  omega

theorem mem_flatMap_numbersIn {ranges : List (Nat × Nat)} {number : Nat} :
    number ∈ ranges.flatMap (fun range => numbersIn range.1 range.2) ↔ Covered ranges number := by
  rw [List.mem_flatMap]
  exact exists_congr (fun range => and_congr_right (fun _ => mem_numbersIn))

/-- The uids of a range, in order, that no other range covers. -/
def uncovered (min max : Nat) (ranges : List (Nat × Nat)) : List Nat :=
  (numbersIn min max).filter (fun number => decide (¬ Covered ranges number))

theorem mem_uncovered {min max number : Nat} {ranges : List (Nat × Nat)} :
    number ∈ uncovered min max ranges ↔
      (min ≤ number ∧ number ≤ max) ∧ ¬ Covered ranges number := by
  unfold uncovered
  rw [List.mem_filter, mem_numbersIn, decide_eq_true_eq]

theorem uncovered_sorted (min max : Nat) (ranges : List (Nat × Nat)) :
    (uncovered min max ranges).Pairwise (· < ·) :=
  (numbersIn_sorted min max).filter _

/-- The uids of a range that are not blocked, from the cursor on and then from the
start. -/
def searchOrder (cfg : AppConfig) (start : Nat) (blocked : List (Nat × Nat)) : List Nat :=
  let free := uncovered cfg.webAccounts.virtualMinUid cfg.webAccounts.virtualMaxUid blocked
  free.filter (fun uid => decide (start ≤ uid)) ++ free.filter (fun uid => decide (uid < start))

section Segments

variable {min max start : Nat} {blocked : List (Nat × Nat)}

theorem flatMap_from_cursor {segments : List (Nat × Nat)} (tidy : Tidy segments) (start : Nat) :
    (segments.filter (fun segment => decide (segment.2 ≥ start))).flatMap
        (fun segment => numbersIn (Nat.max segment.1 start) segment.2) =
      (segments.flatMap (fun segment => numbersIn segment.1 segment.2)).filter
        (fun uid => decide (start ≤ uid)) := by
  refine eq_of_sorted ?_ (tidy.sorted.filter _) ?_
  · refine List.pairwise_flatMap.mpr ⟨fun range _ => numbersIn_sorted _ _, ?_⟩
    refine (tidy.apart.filter _).imp ?_
    intro first second apart number inFirst other inSecond
    have ends := (mem_numbersIn.mp inFirst).2
    have starts := Nat.le_trans (Nat.le_max_left _ _) (mem_numbersIn.mp inSecond).1
    omega
  · intro number
    rw [List.mem_filter, mem_flatMap_numbersIn, List.mem_flatMap, decide_eq_true_eq]
    constructor
    · rintro ⟨segment, kept, inside⟩
      have bounds := mem_numbersIn.mp inside
      have both := Nat.max_le.mp bounds.1
      exact ⟨⟨segment, (List.mem_filter.mp kept).1, both.1, bounds.2⟩, both.2⟩
    · rintro ⟨⟨segment, member, starts, ends⟩, after⟩
      refine ⟨segment, List.mem_filter.mpr ⟨member, ?_⟩, ?_⟩
      · exact decide_eq_true (Nat.le_trans after ends)
      · exact mem_numbersIn.mpr ⟨Nat.max_le.mpr ⟨starts, after⟩, ends⟩

theorem flatMap_to_cursor {segments : List (Nat × Nat)} (tidy : Tidy segments) (start : Nat) :
    (segments.filter (fun segment => decide (segment.1 < start))).flatMap
        (fun segment => numbersIn segment.1 (Nat.min segment.2 (start - 1))) =
      (segments.flatMap (fun segment => numbersIn segment.1 segment.2)).filter
        (fun uid => decide (uid < start)) := by
  refine eq_of_sorted ?_ (tidy.sorted.filter _) ?_
  · refine List.pairwise_flatMap.mpr ⟨fun range _ => numbersIn_sorted _ _, ?_⟩
    refine (tidy.apart.filter _).imp ?_
    intro first second apart number inFirst other inSecond
    have ends := Nat.le_trans (mem_numbersIn.mp inFirst).2 (Nat.min_le_left _ _)
    have starts := (mem_numbersIn.mp inSecond).1
    omega
  · intro number
    rw [List.mem_filter, mem_flatMap_numbersIn, List.mem_flatMap, decide_eq_true_eq]
    constructor
    · rintro ⟨segment, kept, inside⟩
      have bounds := mem_numbersIn.mp inside
      have both := Nat.le_min.mp bounds.2
      have before := of_decide_eq_true (List.mem_filter.mp kept).2
      exact ⟨⟨segment, (List.mem_filter.mp kept).1, bounds.1, both.1⟩, by omega⟩
    · rintro ⟨⟨segment, member, starts, ends⟩, before⟩
      refine ⟨segment, List.mem_filter.mpr ⟨member, ?_⟩, ?_⟩
      · exact decide_eq_true (Nat.lt_of_le_of_lt starts before)
      · exact mem_numbersIn.mpr ⟨starts, Nat.le_min.mpr ⟨ends, by omega⟩⟩

theorem flatMap_gapsBetween (ordered : min ≤ max)
    (valid : forall range, range ∈ blocked -> range.1 ≤ range.2) :
    (gapsBetween min max blocked).flatMap (fun segment => numbersIn segment.1 segment.2) =
      uncovered min max blocked := by
  refine eq_of_sorted (gapsBetween_tidy ordered valid).sorted (uncovered_sorted min max blocked) ?_
  intro number
  rw [mem_flatMap_numbersIn, mem_uncovered, and_assoc]
  exact covered_gapsBetween ordered valid number

/-- The allocator tries the first 1024 uids of the search order. -/
theorem candidates_eq {cfg : AppConfig} (start : Nat)
    (ordered : cfg.webAccounts.virtualMinUid ≤ cfg.webAccounts.virtualMaxUid)
    (valid : forall range, range ∈ blocked -> range.1 ≤ range.2) :
    candidates cfg start blocked = (searchOrder cfg start blocked).take 1024 := by
  have tidy := gapsBetween_tidy ordered valid
  unfold candidates searchOrder
  rw [← flatMap_gapsBetween ordered valid]
  exact congrArg (List.take 1024)
    (congrArg₂ (· ++ ·) (flatMap_from_cursor tidy start) (flatMap_to_cursor tidy start))

end Segments

/-! ## What the allocator computes -/

/-- A uid that nobody holds and that the operating system does not know. -/
def mayTake (seen : Surroundings) (store : Store) (uid : Nat) : Bool :=
  !store.uidTaken uid && seen.freeId uid

/-- The cursor after a uid. -/
def nextCursor (cfg : AppConfig) (uid : Nat) : Nat :=
  if uid = cfg.webAccounts.virtualMaxUid then cfg.webAccounts.virtualMinUid else uid + 1

/-- The first eligible uid, and the cursor behind it. -/
def takeFirst (cfg : AppConfig) (seen : Surroundings) (uids : List Nat) (world : World) :
    Except StoreError Nat × World :=
  match uids.find? (mayTake seen world.store) with
  | none => (.error .quotaExceeded, world)
  | some uid =>
      (.ok uid, { world with
        store := { world.store with virtualUidCursor := some (nextCursor cfg uid) } })

section Computing

variable {env : Environment} {cfg : AppConfig}

theorem query_computes {Value : Type} (read : Store -> Except StoreError Value) :
    Computes (query env read) 1 (fun world => (read world.store, world)) := by
  refine Computes.perform.congr ?_
  intro world
  beta_reduce
  cases read world.store with
  | ok value => rfl
  | error error => rfl

theorem outside_computes : Computes (outside env) 1 (fun world => (.ok (), world)) :=
  Computes.perform

theorem takeFirst_cons (cfg : AppConfig) (seen : Surroundings) (uid : Nat) (rest : List Nat)
    (world : World) :
    takeFirst cfg seen (uid :: rest) world =
      if mayTake seen world.store uid then
        (.ok uid, { world with
          store := { world.store with virtualUidCursor := some (nextCursor cfg uid) } })
      else takeFirst cfg seen rest world := by
  unfold takeFirst
  cases suits : mayTake seen world.store uid with
  | true =>
      rw [List.find?_cons_of_pos suits]
      rfl
  | false =>
      rw [List.find?_cons_of_neg (by rw [suits]; decide)]
      rfl

/-- Two steps for each uid, and one more for the cursor. -/
theorem firstFree_computes (seen : Surroundings) (uids : List Nat)
    (unblocked : forall uid, uid ∈ uids ->
      seen.blocked.any (fun range => within range.1 range.2 uid) = false) :
    Computes (firstFree env cfg seen uids) (2 * uids.length + 1) (takeFirst cfg seen uids) := by
  induction uids with
  | nil => exact (Computes.ofExcept (.error StoreError.quotaExceeded)).weaken (Nat.zero_le _)
  | cons uid rest ih =>
      have later := ih (fun other member => unblocked other (List.mem_cons_of_mem uid member))
      have open_ := unblocked uid List.mem_cons_self
      have stored : Computes (transact env (fun store =>
          .ok ((), { store with virtualUidCursor := some (nextCursor cfg uid) }))) 1
          (fun world => ((.ok () : Except StoreError Unit), { world with
            store := { world.store with virtualUidCursor := some (nextCursor cfg uid) } })) :=
        Computes.perform
      have branch : forall taken : Bool, Computes
          (if !taken && !seen.blocked.any (fun range => within range.1 range.2 uid) && seen.freeId uid
            then do
              transact env (fun store =>
                .ok ((), { store with virtualUidCursor := some (nextCursor cfg uid) }))
              return uid
            else firstFree env cfg seen rest)
          (2 * rest.length + 1)
          (fun world =>
            if !taken && seen.freeId uid then
              (.ok uid, { world with
                store := { world.store with virtualUidCursor := some (nextCursor cfg uid) } })
            else takeFirst cfg seen rest world) := by
        intro taken
        rw [open_, Bool.not_false, Bool.and_true]
        split
        · exact (stored.bind (fun _ => Computes.pure uid)).weaken (Nat.le_add_left _ _)
        · exact later
      have whole := (@query_computes env _ (fun store => .ok (store.uidTaken uid))).bind
        (fun taken => (@outside_computes env).bind (fun _ => branch taken))
      have steps : Computes (firstFree env cfg seen (uid :: rest)) _ _ := whole
      refine (steps.weaken ?_).congr ?_
      · rw [List.length_cons]
        omega
      · intro world
        rw [takeFirst_cons]
        rfl

theorem mem_searchOrder {start uid : Nat} {blocked : List (Nat × Nat)} :
    uid ∈ searchOrder cfg start blocked ↔
      (cfg.webAccounts.virtualMinUid ≤ uid ∧ uid ≤ cfg.webAccounts.virtualMaxUid) ∧
        ¬ Covered blocked uid := by
  unfold searchOrder
  rw [List.mem_append, List.mem_filter, List.mem_filter, decide_eq_true_eq, decide_eq_true_eq,
    ← and_or_left, mem_uncovered]
  exact and_iff_left (Nat.lt_or_ge uid start).symm

theorem searchOrder_nodup (start : Nat) (blocked : List (Nat × Nat)) :
    (searchOrder cfg start blocked).Nodup := by
  have nodup := (uncovered_sorted cfg.webAccounts.virtualMinUid cfg.webAccounts.virtualMaxUid
    blocked).imp (fun less => Nat.ne_of_lt less)
  refine List.nodup_append.mpr ⟨nodup.filter _, nodup.filter _, ?_⟩
  intro uid first other second same
  have after := of_decide_eq_true (List.mem_filter.mp first).2
  have before := of_decide_eq_true (List.mem_filter.mp second).2
  omega

theorem allocate_computes (seen : Surroundings)
    (ordered : cfg.webAccounts.virtualMinUid ≤ cfg.webAccounts.virtualMaxUid)
    (valid : forall range, range ∈ seen.blocked -> range.1 ≤ range.2) :
    Computes (allocate env cfg seen) 2051 (fun world =>
      let start := world.store.virtualUidCursor.getD cfg.webAccounts.virtualMinUid
      if start < cfg.webAccounts.virtualMinUid ∨ start > cfg.webAccounts.virtualMaxUid then
        (.error .invalidInput, world)
      else takeFirst cfg seen ((searchOrder cfg start seen.blocked).take 1024) world) := by
  have search : forall start, Computes (firstFree env cfg seen (candidates cfg start seen.blocked))
      2049 (takeFirst cfg seen ((searchOrder cfg start seen.blocked).take 1024)) := by
    intro start
    rw [candidates_eq start ordered valid]
    refine (firstFree_computes seen _ ?_).weaken ?_
    · intro uid member
      have free := (mem_searchOrder.mp (List.mem_of_mem_take member)).2
      apply List.any_eq_false.mpr
      intro range blocked holds
      rw [within, Bool.and_eq_true, decide_eq_true_eq, decide_eq_true_eq] at holds
      exact free ⟨range, blocked, holds⟩
    · have short := List.length_take_le 1024 (searchOrder cfg start seen.blocked)
      omega
  have whole := (@query_computes env _ (fun store => .ok store.virtualUidCursor)).bind
    (fun cursor => (@outside_computes env).bind (fun _ =>
      (Computes.ofExcept (refuse (decide (cursor.getD cfg.webAccounts.virtualMinUid <
            cfg.webAccounts.virtualMinUid) ||
          decide (cursor.getD cfg.webAccounts.virtualMinUid > cfg.webAccounts.virtualMaxUid))
        StoreError.invalidInput)).bind
        (fun _ => search (cursor.getD cfg.webAccounts.virtualMinUid))))
  have steps : Computes (allocate env cfg seen) _ _ := whole
  refine (steps.weaken (Nat.le_refl _)).congr ?_
  intro world
  by_cases outside : world.store.virtualUidCursor.getD cfg.webAccounts.virtualMinUid <
      cfg.webAccounts.virtualMinUid ∨
    world.store.virtualUidCursor.getD cfg.webAccounts.virtualMinUid > cfg.webAccounts.virtualMaxUid
  · simp [refuse, outside]
  · simp [refuse, outside]

end Computing

/-! ## What the search finds -/

theorem nextCursor_inside {cfg : AppConfig} {uid : Nat}
    (ordered : cfg.webAccounts.virtualMinUid ≤ cfg.webAccounts.virtualMaxUid)
    (low : cfg.webAccounts.virtualMinUid ≤ uid) (high : uid ≤ cfg.webAccounts.virtualMaxUid) :
    cfg.webAccounts.virtualMinUid ≤ nextCursor cfg uid ∧
      nextCursor cfg uid ≤ cfg.webAccounts.virtualMaxUid := by
  unfold nextCursor
  split
  · exact ⟨Nat.le_refl _, ordered⟩
  · omega

/-- The outcome of a search through the first 1024 uids of an order. -/
inductive SearchOutcome (cfg : AppConfig) (seen : Surroundings) (world : World) (order : List Nat) :
    Behaviour World Move StoreError Nat -> Prop where
  | nothing {ran : Behaviour World Move StoreError Nat} (failed : ran.ending = .failed .quotaExceeded)
      (same : ran.world = world)
      (none_ : forall uid, uid ∈ order.take 1024 -> mayTake seen world.store uid = false) :
      SearchOutcome cfg seen world order ran
  | uid {ran : Behaviour World Move StoreError Nat} (uid cursor : Nat)
      (returned : ran.ending = .returned uid)
      (first : (order.take 1024).find? (mayTake seen world.store) = some uid)
      (stored : ran.world =
        { world with store := { world.store with virtualUidCursor := some cursor } })
      (low : cfg.webAccounts.virtualMinUid ≤ cursor) (high : cursor ≤ cfg.webAccounts.virtualMaxUid) :
      SearchOutcome cfg seen world order ran

/-- The search for a uid comes to an end.  It tries the uids outside the blocked
ranges once each, beginning at the cursor, and gives up after 1024 of them, so that
in a smaller range it gives up only when no uid can be taken. -/
theorem uid_search_bounded (env : Environment) (cfg : AppConfig) (seen : Surroundings)
    (world : World) (count : Nat) (enough : 2051 ≤ count)
    (ordered : cfg.webAccounts.virtualMinUid ≤ cfg.webAccounts.virtualMaxUid)
    (valid : forall range, range ∈ seen.blocked -> range.1 ≤ range.2) (start : Nat)
    (cursor : world.store.virtualUidCursor.getD cfg.webAccounts.virtualMinUid = start)
    (low : cfg.webAccounts.virtualMinUid ≤ start) (high : start ≤ cfg.webAccounts.virtualMaxUid) :
    SearchOutcome cfg seen world (searchOrder cfg start seen.blocked)
        (allocate env cfg seen (undisturbed count) world) ∧
      (searchOrder cfg start seen.blocked).Nodup ∧
      (forall uid, uid ∈ searchOrder cfg start seen.blocked ↔
        (cfg.webAccounts.virtualMinUid ≤ uid ∧ uid ≤ cfg.webAccounts.virtualMaxUid) ∧
          ¬ Covered seen.blocked uid) ∧
      ((allocate env cfg seen (undisturbed count) world).ending = .failed .quotaExceeded ->
        (searchOrder cfg start seen.blocked).length ≤ 1024 ->
        forall uid, cfg.webAccounts.virtualMinUid ≤ uid -> uid ≤ cfg.webAccounts.virtualMaxUid ->
          ¬ Covered seen.blocked uid -> mayTake seen world.store uid = false) := by
  have found : SearchOutcome cfg seen world (searchOrder cfg start seen.blocked)
      (allocate env cfg seen (undisturbed count) world) := by
    rcases @allocate_computes env cfg seen ordered valid count world enough with
      ⟨_, _, _, reached, ended⟩
    dsimp only at reached ended
    rw [cursor, if_neg (by omega)] at reached ended
    unfold takeFirst at reached ended
    cases chosen : ((searchOrder cfg start seen.blocked).take 1024).find?
        (mayTake seen world.store) with
    | none =>
        rw [chosen] at reached ended
        refine .nothing ended reached ?_
        intro uid member
        exact Bool.eq_false_of_not_eq_true (List.find?_eq_none.mp chosen uid member)
    | some uid =>
        rw [chosen] at reached ended
        have inside := (mem_searchOrder.mp
          (List.mem_of_mem_take (List.mem_of_find?_eq_some chosen))).1
        have next := nextCursor_inside ordered inside.1 inside.2
        exact .uid uid (nextCursor cfg uid) ended chosen reached next.1 next.2
  refine ⟨found, searchOrder_nodup start seen.blocked, fun uid => mem_searchOrder, ?_⟩
  intro failed short uid above below free
  cases found with
  | nothing _ _ none_ =>
      apply none_ uid
      rw [List.take_of_length_le short]
      exact mem_searchOrder.mpr ⟨⟨above, below⟩, free⟩
  | uid _ _ returned =>
      rw [returned] at failed
      cases failed

namespace OneSearch

/-- A range of 2001 uids. -/
def config : AppConfig :=
  { AppConfig.standard with
    virtualAccounts := ⟨true, false, 36, 4096, .userQuota, 100000⟩
    webAccounts := ⟨true, none, true, [], 200000, 202000, []⟩
    homeTemplate := some AllowedRoot.standard }

def environment : Environment := ⟨⟨fun _ _ => .ok false⟩, fun _ => [], ⟨fun _ => 0⟩⟩

/-- The operating system knows the first 1024 of them. -/
def seen : Surroundings := ⟨0, 0, false, [], fun uid => decide (201024 ≤ uid), fun _ => false⟩

end OneSearch

open OneSearch in
/-- The search fails, and leaves everything as it is for the next one, though half
of the range is free. -/
theorem crowded_search_fails :
    (allocate environment config seen (undisturbed 2051) (World.initial [])).ending =
        .failed .quotaExceeded ∧
      (allocate environment config seen (undisturbed 2051) (World.initial [])).world =
        World.initial [] ∧
      config.webAccounts.virtualMinUid ≤ 201024 ∧ 201024 ≤ config.webAccounts.virtualMaxUid ∧
      ¬ Covered seen.blocked 201024 ∧ mayTake seen (World.initial []).store 201024 = true := by
  have none_ : takeFirst config seen ((searchOrder config 200000 seen.blocked).take 1024)
      (World.initial []) = (.error .quotaExceeded, World.initial []) := by
    have nothing : ((searchOrder config 200000 seen.blocked).take 1024).find?
        (mayTake seen (World.initial []).store) = none := by decide +kernel
    unfold takeFirst
    rw [nothing]
  rcases @allocate_computes environment config seen (by decide)
    (fun _ member => absurd member List.not_mem_nil) 2051 (World.initial []) (Nat.le_refl _) with
    ⟨_, _, _, reached, ended⟩
  have started : (World.initial []).store.virtualUidCursor.getD config.webAccounts.virtualMinUid =
      200000 := rfl
  dsimp only at reached ended
  rw [started, if_neg (by decide), none_] at reached ended
  exact ⟨ended, reached, by decide, by decide, by decide, by decide⟩

open OneSearch in
theorem uid_search_bounded_crowded :
    SearchOutcome config seen (World.initial []) (searchOrder config 200000 seen.blocked)
      (allocate environment config seen (undisturbed 2051) (World.initial [])) :=
  (uid_search_bounded environment config seen (World.initial []) 2051 (Nat.le_refl _)
    (by decide) (fun _ member => absurd member List.not_mem_nil) 200000 rfl
    (by decide) (by decide)).1

end TealDrive
