import TealDrive.Accounts.Changes
import TealDrive.Library.Pages
import TealDrive.Library.Sorting

namespace TealDrive

open Outcome

/-!
# Pages of accounts

Accounts are listed by username.  A page ends with a cursor, the username of
its last account, and the next page starts behind it; the scope follows from
the caller's authority and never from the cursor.  Usernames are unique, so the
pages cover the listing without gap or repetition, as long as every cursor is
taken back.  A cursor with a control character is not, although an account may
have such a name: exactly then the pages behind it are out of reach.

Case is folded for ASCII alone and texts are ordered by code points, as in the
database.
-/

structure AccountQuery where
  limit : Nat
  cursor : Option Text
  filter : Option Text
  status : Option AccountStatus
  enrolled : Option Bool

/-- `AccountQuery::default`. -/
def AccountQuery.standard : AccountQuery := ⟨100, none, none, none, none⟩

structure AccountPage where
  items : List Account
  nextCursor : Option Text
  hasMore : Bool

namespace AccountQuery

/-- What `list_page` refuses to take for a cursor. -/
def refusesCursor (cursor : Text) : Bool :=
  decide (cursor.len > 256) || cursor.hasControl

def refusesFilter (filter : Text) : Bool :=
  decide (filter.len > 128) || filter.hasControl

def invalid (query : AccountQuery) : Bool :=
  !(decide (1 ≤ query.limit) && decide (query.limit ≤ 200)) || query.cursor.any refusesCursor ||
    query.filter.any refusesFilter

/-- The conditions of the query that do not speak of the cursor. -/
def selects (query : AccountQuery) (kind : AccountKind) (owner : Option Uuid) (row : AccountRow) :
    Bool :=
  row.kind == kind && owner.all (fun owner => row.ownerAdminId == some owner) &&
    query.filter.all (fun filter => Text.containsStr (Text.toAsciiLowercase row.username)
      (Text.toAsciiLowercase filter)) &&
    query.status.all (fun status => row.status == status) &&
    query.enrolled.all (fun enrolled => row.webPasswordHash.isSome == enrolled)

end AccountQuery

namespace Store

/-- `ORDER BY username` on the rows behind the cursor that the query selects. -/
def selected (store : Store) (kind : AccountKind) (owner : Option Uuid) (query : AccountQuery) :
    List (Uuid × AccountRow) :=
  (store.accounts.rows.filter (fun entry => query.selects kind owner entry.2 &&
    query.cursor.all (fun cursor => decide (cursor < entry.2.username)))).insertionSort
      (fun first second => first.2.username ≤ second.2.username)

/-- The page made of the first rows, one more than the limit at most. -/
def pageOf (store : Store) (limit : Nat) (rows : List (Uuid × AccountRow)) : AccountPage :=
  let read := (rows.take (limit + 1)).map (fun entry => store.view entry.1 entry.2)
  let hasMore := decide (read.length > limit)
  let items := if hasMore then read.dropLast else read
  { items := items
    nextCursor := if hasMore then items.getLast?.map (fun account => account.username) else none
    hasMore := hasMore }

def listPage (store : Store) (authority : Authority) (kind : AccountKind) (query : AccountQuery) :
    Except StoreError AccountPage := do
  refuse query.invalid .invalidInput
  let actor ← store.authorized authority
  refuse (actor.any (fun actor => actor.role != .admin || kind == .linux)) .forbidden
  return store.pageOf query.limit (store.selected kind (actor.map (fun actor => actor.id)) query)

/-- The loop of `all_accounts`.  The first argument is how many more pages it
may read; the caller grants more than there can be. -/
def allLoop (store : Store) (authority : Authority) (kind : AccountKind) :
    Nat -> Option Text -> List Account -> Except StoreError (List Account)
  | 0, _, _ => .error .database
  | left + 1, cursor, result => do
      let page ← store.listPage authority kind
        { AccountQuery.standard with limit := 200, cursor := cursor }
      let result := result ++ page.items
      refuse (decide (result.length > 100000)) .invalidInput
      if page.hasMore then store.allLoop authority kind left page.nextCursor result
      else return result

def allAccounts (store : Store) (authority : Authority) (kind : AccountKind) :
    Except StoreError (List Account) :=
  store.allLoop authority kind 100001 none []

end Store

/-! ## What is to be listed -/

/-- The owner whose accounts an authority may list, unless it may list all. -/
def Authority.owner : Authority -> Option Uuid
  | .root => none
  | .account id _ => some id

/-- Every account of the kind in the scope of the authority that the query asks
for, each once and by username. -/
def ListsAccounts (store : Store) (authority : Authority) (kind : AccountKind)
    (query : AccountQuery) (accounts : List Account) : Prop :=
  accounts.Pairwise (fun first second => first.username < second.username) ∧
    forall account, account ∈ accounts ↔
      ∃ id row, store.accounts.find id = some row ∧
        query.selects kind authority.owner row = true ∧ account = store.view id row

/-- Following the cursors from the start comes to an end, without an error, and
yields the whole listing. -/
def PagesComplete (store : Store) (authority : Authority) (kind : AccountKind)
    (query : AccountQuery) : Prop :=
  ∃ pages, Pages.Followed (fun cursor => store.listPage authority kind { query with cursor := cursor })
      AccountPage.nextCursor none pages ∧
    ListsAccounts store authority kind query (pages.flatMap AccountPage.items)

/-- The authority is live and may list accounts of the kind. -/
def MayList (store : Store) (authority : Authority) (kind : AccountKind) : Prop :=
  ∃ actor, store.authorized authority = .ok actor ∧
    forall account, actor = some account -> account.role = .admin ∧ kind = .virtual

/-- The limit and the filter are admitted. -/
def AccountQuery.Admitted (query : AccountQuery) : Prop :=
  1 ≤ query.limit ∧ query.limit ≤ 200 ∧
    forall filter, query.filter = some filter -> AccountQuery.refusesFilter filter = false

/-- The accounts of the listing, by username. -/
def Store.listing (store : Store) (authority : Authority) (kind : AccountKind)
    (query : AccountQuery) : List (Uuid × AccountRow) :=
  store.selected kind authority.owner { query with cursor := none }

/-- An account at the end of a page, behind which others follow, has a name
that is taken back as a cursor. -/
def CursorsReturn (store : Store) (authority : Authority) (kind : AccountKind)
    (query : AccountQuery) : Prop :=
  forall page entry, 0 < page ->
    page * query.limit < (store.listing authority kind query).length ->
    (store.listing authority kind query)[page * query.limit - 1]? = some entry ->
    AccountQuery.refusesCursor entry.2.username = false

/-! ## Rows by username -/

/-- The order of the listing. -/
abbrev Earlier (first second : Uuid × AccountRow) : Prop :=
  first.2.username < second.2.username

theorem earlier_asymm (first second : Uuid × AccountRow) (less : Earlier first second) :
    ¬ Earlier second first :=
  List.lt_asymm less

theorem lt_of_le_of_ne' {first second : Text} (less : first ≤ second) (different : first ≠ second) :
    first < second := by
  by_contra greater
  exact different (le_antisymm less (not_lt.mp greater))

section Listing

variable {store : Store} {authority : Authority} {kind : AccountKind} {query : AccountQuery}

theorem mem_selected {owner : Option Uuid} {entry : Uuid × AccountRow} :
    entry ∈ store.selected kind owner query ↔
      store.accounts.find entry.1 = some entry.2 ∧ query.selects kind owner entry.2 = true ∧
        forall cursor, query.cursor = some cursor -> cursor < entry.2.username := by
  rw [Store.selected, List.mem_insertionSort, List.mem_filter, Bool.and_eq_true,
    Option.all_eq_true, Table.find_eq_some_iff]
  simp only [decide_eq_true_eq]

/-- Usernames are unique, so the order is strict. -/
theorem selected_sorted (unique : UniqueNames store.accounts) (owner : Option Uuid) :
    (store.selected kind owner query).Pairwise Earlier := by
  have total : Std.Total (fun first second : Uuid × AccountRow =>
      first.2.username ≤ second.2.username) := ⟨fun _ _ => le_total _ _⟩
  have trans : IsTrans (Uuid × AccountRow) (fun first second =>
      first.2.username ≤ second.2.username) := ⟨fun _ _ _ => le_trans⟩
  have sorted : (store.selected kind owner query).Pairwise (fun first second =>
      first.2.username ≤ second.2.username) := List.pairwise_insertionSort _ _
  have nodup : (store.selected kind owner query).Nodup := by
    rw [Store.selected, (List.perm_insertionSort _ _).nodup_iff]
    exact (List.Nodup.of_map _ store.accounts.unique).filter _
  refine (sorted.and nodup).imp_of_mem ?_
  intro first second left right both
  refine lt_of_le_of_ne' both.1 ?_
  intro same
  rcases mem_selected.mp left with ⟨firstFound, _⟩
  rcases mem_selected.mp right with ⟨secondFound, _⟩
  have key := unique first.1 second.1 first.2 second.2 firstFound secondFound same
  rw [key, secondFound] at firstFound
  exact both.2 (Prod.ext key (Option.some.inj firstFound).symm)

/-- Behind the account at some place the listing goes on with the next. -/
theorem selected_after (unique : UniqueNames store.accounts) {place : Nat}
    {entry : Uuid × AccountRow}
    (here : (store.listing authority kind query)[place]? = some entry) :
    store.selected kind authority.owner { query with cursor := some entry.2.username } =
      (store.listing authority kind query).drop (place + 1) := by
  have sorted : (store.listing authority kind query).Pairwise Earlier := selected_sorted unique _
  rw [← Pages.filter_before_eq_drop earlier_asymm sorted here]
  apply Pages.eq_of_perm earlier_asymm
  · rw [Store.selected, Store.listing, Store.selected]
    refine (List.perm_insertionSort _ _).trans ?_
    refine List.Perm.trans ?_ ((List.perm_insertionSort _ _).filter _).symm
    rw [List.filter_filter]
    refine List.Perm.of_eq (List.filter_congr ?_)
    intro other _
    simp only [Option.all_some, Option.all_none, Bool.and_true]
    exact Bool.and_comm _ _
  · exact selected_sorted unique _
  · exact sorted.filter _

/-! ## One page -/

theorem pageOf_hasMore {limit : Nat} {rows : List (Uuid × AccountRow)} :
    (store.pageOf limit rows).hasMore = true ↔ limit < rows.length := by
  simp only [Store.pageOf, decide_eq_true_eq, List.length_map, List.length_take]
  omega

theorem pageOf_items {limit : Nat} {rows : List (Uuid × AccountRow)} :
    (store.pageOf limit rows).items =
      (rows.take limit).map (fun entry => store.view entry.1 entry.2) := by
  simp only [Store.pageOf, decide_eq_true_eq, List.length_map, List.length_take]
  split
  · rename_i more
    have longer : limit + 1 ≤ rows.length := by omega
    rw [← List.map_dropLast, List.dropLast_eq_take, List.take_take, List.length_take,
      Nat.min_eq_left longer, Nat.add_sub_cancel, Nat.min_eq_left (Nat.le_succ limit)]
  · rename_i short
    rw [List.take_of_length_le (by omega), List.take_of_length_le (by omega)]

theorem pageOf_nextCursor {limit : Nat} (positive : 1 ≤ limit) {rows : List (Uuid × AccountRow)}
    {cursor : Text} :
    (store.pageOf limit rows).nextCursor = some cursor ↔
      limit < rows.length ∧ ∃ entry, rows[limit - 1]? = some entry ∧ entry.2.username = cursor := by
  have same : (store.pageOf limit rows).nextCursor =
      if (store.pageOf limit rows).hasMore = true then
        (store.pageOf limit rows).items.getLast?.map (fun account => account.username)
      else none := rfl
  rw [same, pageOf_items, List.getLast?_map, Option.map_map]
  by_cases more : limit < rows.length
  · rw [if_pos (pageOf_hasMore.mpr more), List.getLast?_eq_getElem?, List.length_take,
      Nat.min_eq_left (Nat.le_of_lt more), List.getElem?_take_of_lt (by omega),
      Option.map_eq_some_iff]
    exact (and_iff_right more).symm
  · rw [if_neg (fun further => more (pageOf_hasMore.mp further))]
    constructor
    · intro nothing
      cases nothing
    · intro further
      exact absurd further.1 more

theorem pageOf_nextCursor_none {limit : Nat} (positive : 1 ≤ limit)
    {rows : List (Uuid × AccountRow)} :
    (store.pageOf limit rows).nextCursor = none ↔ rows.length ≤ limit := by
  constructor
  · intro ends
    by_contra more
    have present : limit - 1 < rows.length := by omega
    have next : (store.pageOf limit rows).nextCursor = some (rows[limit - 1]).2.username :=
      (pageOf_nextCursor positive).mpr ⟨Nat.not_le.mp more, rows[limit - 1],
        List.getElem?_eq_getElem present, rfl⟩
    rw [ends] at next
    cases next
  · intro short
    cases next : (store.pageOf limit rows).nextCursor with
    | none => rfl
    | some cursor => exact absurd ((pageOf_nextCursor positive).mp next).1 (Nat.not_lt.mpr short)

/-- A page is delivered to an authority that may list, for an admitted query. -/
theorem listPage_eq_ok_iff {page : AccountPage} :
    store.listPage authority kind query = .ok page ↔
      query.invalid = false ∧ MayList store authority kind ∧
        store.pageOf query.limit (store.selected kind authority.owner query) = page := by
  have own : forall actor, store.authorized authority = .ok actor ->
      actor.map (fun account => account.id) = authority.owner := by
    intro actor live
    cases authority with
    | root =>
        cases live
        rfl
    | account id generation =>
        simp only [Store.authorized, bind_eq_ok, pure_eq_ok, Store.account, okOr_eq_ok,
          Option.map_eq_some_iff] at live
        rcases live with ⟨account, ⟨row, _, viewed⟩, _, _, same⟩
        rw [← same, ← viewed]
        rfl
  simp only [Store.listPage, bind_eq_ok, refuse_eq_ok, pure_eq_ok]
  constructor
  · rintro ⟨_, valid, actor, live, _, allowed, same⟩
    rw [own actor live] at same
    refine ⟨valid, ⟨actor, live, ?_⟩, same⟩
    intro account present
    rw [present] at allowed
    simp only [Option.any_some, Bool.or_eq_false_iff, bne_eq_false_iff_eq,
      beq_eq_false_iff_ne] at allowed
    refine ⟨allowed.1, ?_⟩
    cases kind with
    | linux => exact absurd rfl allowed.2
    | virtual => rfl
  · rintro ⟨valid, ⟨actor, live, allowed⟩, same⟩
    rw [← own actor live] at same
    refine ⟨⟨⟩, valid, actor, live, ⟨⟩, ?_, same⟩
    cases actor with
    | none => rfl
    | some account =>
        rcases allowed account rfl with ⟨role, virtual⟩
        simp [role, virtual]

/-- An admitted query stays admitted with a cursor that is taken back. -/
theorem invalid_withCursor {cursor : Option Text} :
    AccountQuery.invalid { query with cursor := cursor } = false ↔
      query.Admitted ∧ forall text, cursor = some text -> AccountQuery.refusesCursor text = false := by
  simp only [AccountQuery.invalid, AccountQuery.Admitted, Bool.or_eq_false_iff,
    Bool.not_eq_false', Bool.and_eq_true, decide_eq_true_eq, Option.any_eq_false]
  constructor
  · rintro ⟨⟨⟨least, most⟩, back⟩, filter⟩
    exact ⟨⟨least, most, fun text given => by simpa using filter text given⟩, fun text given => by simpa using back text given⟩
  · rintro ⟨⟨least, most, filter⟩, back⟩
    exact ⟨⟨⟨least, most⟩, fun text given => by simpa using back text given⟩, fun text given => by simpa using filter text given⟩

/-! ## All pages -/

/-- A cursor behind which the listing goes on at a place. -/
def At (store : Store) (authority : Authority) (kind : AccountKind) (query : AccountQuery)
    (place : Nat) (cursor : Option Text) : Prop :=
  store.selected kind authority.owner { query with cursor := cursor } =
    (store.listing authority kind query).drop place

theorem at_start : At store authority kind query 0 none := rfl

/-- The cursor of a page leads to the place behind it. -/
theorem At.next (unique : UniqueNames store.accounts) (positive : 1 ≤ query.limit) {place : Nat}
    {cursor : Option Text} {later : Text} (here : At store authority kind query place cursor)
    (next : (store.pageOf query.limit (store.selected kind authority.owner
      { query with cursor := cursor })).nextCursor = some later) :
    At store authority kind query (place + query.limit) (some later) ∧
      place + query.limit < (store.listing authority kind query).length ∧
      ∃ entry, (store.listing authority kind query)[place + query.limit - 1]? = some entry ∧
        entry.2.username = later := by
  rw [here] at next
  rcases (pageOf_nextCursor positive).mp next with ⟨more, entry, present, named⟩
  rw [List.length_drop] at more
  rw [List.getElem?_drop] at present
  have place_eq : place + (query.limit - 1) = place + query.limit - 1 := by omega
  rw [place_eq] at present
  refine ⟨?_, by omega, entry, present, named⟩
  have after := selected_after unique present
  have behind : place + query.limit - 1 + 1 = place + query.limit := by omega
  rw [named, behind] at after
  exact after

/-- What a page that is fetched at a place looks like. -/
theorem At.page {place : Nat} {cursor : Option Text} {page : AccountPage}
    (here : At store authority kind query place cursor)
    (fetched : store.listPage authority kind { query with cursor := cursor } = .ok page) :
    store.pageOf query.limit ((store.listing authority kind query).drop place) = page := by
  rw [← here]
  exact (listPage_eq_ok_iff.mp fetched).2.2

/-- The pages from a place on hold what stands there. -/
theorem pages_accounts (unique : UniqueNames store.accounts) (positive : 1 ≤ query.limit)
    {place : Nat} {cursor : Option Text} {pages : List AccountPage}
    (followed : Pages.Followed (fun cursor => store.listPage authority kind
      { query with cursor := cursor }) AccountPage.nextCursor cursor pages)
    (here : At store authority kind query place cursor) :
    pages.flatMap AccountPage.items =
      ((store.listing authority kind query).drop place).map
        (fun entry => store.view entry.1 entry.2) := by
  rw [← here]
  refine Pages.Followed.items_eq (fun cursor => ∃ place, At store authority kind query place cursor)
    (fun cursor => (store.selected kind authority.owner { query with cursor := cursor }).map
      (fun entry => store.view entry.1 entry.2)) ?_ followed ⟨place, here⟩
  rintro cursor page ⟨place, here⟩ fetched
  have same := here.page fetched
  subst same
  constructor
  · intro ends
    rw [pageOf_items, here, List.take_of_length_le ((pageOf_nextCursor_none positive).mp ends)]
  · intro later goes
    rw [← here] at goes
    rcases here.next unique positive goes with ⟨there, _⟩
    refine ⟨⟨_, there⟩, ?_⟩
    rw [pageOf_items, here, there, ← List.drop_drop, ← List.map_append, List.take_append_drop]

/-- Where the pages can be followed, every cursor was taken back. -/
theorem cursors_of_followed (unique : UniqueNames store.accounts) (positive : 1 ≤ query.limit)
    {place : Nat} {cursor : Option Text} {pages : List AccountPage}
    (followed : Pages.Followed (fun cursor => store.listPage authority kind
      { query with cursor := cursor }) AccountPage.nextCursor cursor pages)
    (here : At store authority kind query place cursor) (page : Nat) (entry : Uuid × AccountRow)
    (later : 0 < page)
    (inside : place + page * query.limit < (store.listing authority kind query).length)
    (present : (store.listing authority kind query)[place + page * query.limit - 1]? =
      some entry) : AccountQuery.refusesCursor entry.2.username = false := by
  induction followed generalizing place page with
  | last fetched ends =>
      rw [← here.page fetched, pageOf_nextCursor_none positive, List.length_drop] at ends
      have least : query.limit ≤ page * query.limit := Nat.le_mul_of_pos_left _ later
      omega
  | more fetched goes rest ih =>
      rw [← here.page fetched, ← here] at goes
      rcases here.next unique positive goes with ⟨there, _, boundary, atEnd, named⟩
      cases page with
      | zero => exact absurd later (Nat.lt_irrefl 0)
      | succ page =>
          cases page with
          | zero =>
              rw [Nat.zero_add, Nat.one_mul, atEnd] at present
              cases present
              rcases rest.fetched with ⟨_, fetchedNext⟩
              have valid := (listPage_eq_ok_iff.mp fetchedNext).1
              exact (invalid_withCursor.mp valid).2 _ (congrArg some named.symm)
          | succ page =>
              have shift : place + (page + 1 + 1) * query.limit =
                  place + query.limit + (page + 1) * query.limit := by
                rw [Nat.succ_mul (page + 1)]
                omega
              rw [shift] at inside present
              exact ih there (page + 1) (Nat.succ_pos page) inside present

/-- Where cursors return, the pages can be followed to the end. -/
theorem exists_accountPages (unique : UniqueNames store.accounts) (admitted : query.Admitted)
    (mayList : MayList store authority kind) (returns : CursorsReturn store authority kind query) :
    ∃ pages, Pages.Followed (fun cursor => store.listPage authority kind
      { query with cursor := cursor }) AccountPage.nextCursor none pages := by
  apply Pages.exists_followed (fun cursor => ∃ page,
      At store authority kind query (page * query.limit) cursor ∧
        forall text, cursor = some text -> AccountQuery.refusesCursor text = false)
    (fun cursor => (store.selected kind authority.owner { query with cursor := cursor }).length)
  · rintro cursor ⟨page, here, allowed⟩
    refine ⟨_, listPage_eq_ok_iff.mpr ⟨invalid_withCursor.mpr ⟨admitted, allowed⟩, mayList, rfl⟩, ?_⟩
    intro later goes
    rcases here.next unique admitted.1 goes with ⟨there, inside, entry, present, named⟩
    have shift : page * query.limit + query.limit = (page + 1) * query.limit :=
      (Nat.succ_mul page query.limit).symm
    refine ⟨⟨page + 1, shift ▸ there, ?_⟩, ?_⟩
    · intro text same
      cases same
      rw [shift] at inside present
      rw [← named]
      exact returns (page + 1) entry (Nat.succ_pos page) inside present
    · rw [there, here, List.length_drop, List.length_drop]
      have positive := admitted.1
      omega
  · refine ⟨0, ?_, ?_⟩
    · rw [Nat.zero_mul]
      exact at_start
    · intro text same
      cases same

/-- The rows by username are the listing. -/
theorem listsAccounts_listing (unique : UniqueNames store.accounts) :
    ListsAccounts store authority kind query ((store.listing authority kind query).map
      (fun entry => store.view entry.1 entry.2)) := by
  constructor
  · rw [List.pairwise_map]
    exact selected_sorted unique _
  · intro account
    rw [List.mem_map]
    constructor
    · rintro ⟨entry, member, same⟩
      rcases mem_selected.mp member with ⟨found, selected, _⟩
      exact ⟨entry.1, entry.2, found, selected, same.symm⟩
    · rintro ⟨id, row, found, selected, same⟩
      refine ⟨(id, row), mem_selected.mpr ⟨found, selected, ?_⟩, same.symm⟩
      intro cursor given
      cases given

/-! ## `all_accounts` -/

/-- The query that `all_accounts` repeats. -/
def AccountQuery.all : AccountQuery :=
  { AccountQuery.standard with limit := 200 }

theorem all_admitted : AccountQuery.all.Admitted :=
  ⟨by decide, by decide, fun _ given => nomatch given⟩

/-- A page says that more follow exactly when it has a cursor. -/
theorem hasMore_of_fetched {cursor : Option Text} {page : AccountPage} (admitted : query.Admitted)
    (fetched : store.listPage authority kind { query with cursor := cursor } = .ok page) :
    page.hasMore = true ↔ page.nextCursor ≠ none := by
  rw [← (listPage_eq_ok_iff.mp fetched).2.2, pageOf_hasMore, ne_eq,
    pageOf_nextCursor_none admitted.1, Nat.not_le]

/-- The loop collects the pages that a reader would follow. -/
theorem allLoop_of_followed {cursor : Option Text} {pages : List AccountPage}
    (followed : Pages.Followed (fun cursor => store.listPage authority kind
      { AccountQuery.all with cursor := cursor }) AccountPage.nextCursor cursor pages)
    {left : Nat} {result : List Account} (enough : (pages.flatMap AccountPage.items).length < left)
    (few : (result ++ pages.flatMap AccountPage.items).length ≤ 100000) :
    store.allLoop authority kind left cursor result =
      .ok (result ++ pages.flatMap AccountPage.items) := by
  induction followed generalizing left result with
  | @last cursor page fetched ends =>
      cases left with
      | zero => exact absurd enough (Nat.not_lt_zero _)
      | succ left =>
          rw [List.flatMap_singleton] at few ⊢
          have single : page.hasMore = false := by
            rw [← Bool.not_eq_true, hasMore_of_fetched all_admitted fetched]
            exact fun more => more ends
          simp only [Store.allLoop, bind_eq_ok, refuse_eq_ok]
          refine ⟨page, fetched, ⟨⟩, decide_eq_false (Nat.not_lt.mpr few), ?_⟩
          rw [single]
          rfl
  | @more cursor page later rest fetched goes _ ih =>
      cases left with
      | zero => exact absurd enough (Nat.not_lt_zero _)
      | succ left =>
          have more : page.hasMore = true := by
            rw [hasMore_of_fetched all_admitted fetched, goes]
            exact Option.some_ne_none later
          have filled : 0 < page.items.length := by
            rw [← (listPage_eq_ok_iff.mp fetched).2.2, pageOf_hasMore] at more
            rw [← (listPage_eq_ok_iff.mp fetched).2.2, pageOf_items, List.length_map,
              List.length_take]
            exact Nat.lt_min.mpr ⟨all_admitted.1, Nat.lt_of_le_of_lt (Nat.zero_le _) more⟩
          rw [List.flatMap_cons, ← List.append_assoc] at few ⊢
          rw [List.flatMap_cons, List.length_append] at enough
          simp only [Store.allLoop, bind_eq_ok, refuse_eq_ok]
          refine ⟨page, fetched, ⟨⟩, decide_eq_false ?_, ?_⟩
          · rw [List.length_append] at few
            omega
          · rw [more, goes]
            exact ih (by omega) few

/-- What the loop collects are the pages that a reader would follow. -/
theorem followed_of_allLoop {left : Nat} {cursor : Option Text} {result accounts : List Account}
    (collected : store.allLoop authority kind left cursor result = .ok accounts) :
    ∃ pages, Pages.Followed (fun cursor => store.listPage authority kind
        { AccountQuery.all with cursor := cursor }) AccountPage.nextCursor cursor pages ∧
      accounts = result ++ pages.flatMap AccountPage.items := by
  induction left generalizing cursor result with
  | zero => cases collected
  | succ left ih =>
      simp only [Store.allLoop, bind_eq_ok, refuse_eq_ok] at collected
      rcases collected with ⟨page, fetched, _, _, goesOn⟩
      cases next : page.nextCursor with
      | none =>
          have single : page.hasMore = false := by
            rw [← Bool.not_eq_true, hasMore_of_fetched all_admitted fetched]
            exact fun more => more next
          rw [single] at goesOn
          cases goesOn
          exact ⟨[page], .last fetched next, by rw [List.flatMap_singleton]⟩
      | some later =>
          have more : page.hasMore = true := by
            rw [hasMore_of_fetched all_admitted fetched, next]
            exact Option.some_ne_none later
          rw [more, next] at goesOn
          rcases ih goesOn with ⟨pages, followed, same⟩
          refine ⟨page :: pages, .more fetched next followed, ?_⟩
          rw [same, List.flatMap_cons, List.append_assoc]

/-- A listing that is complete was admitted, and its cursors returned. -/
theorem PagesComplete.cursorsReturn (unique : UniqueNames store.accounts)
    (complete : PagesComplete store authority kind query) :
    query.Admitted ∧ MayList store authority kind ∧ CursorsReturn store authority kind query := by
  rcases complete with ⟨pages, followed, _⟩
  rcases followed.fetched with ⟨page, fetched⟩
  rcases listPage_eq_ok_iff.mp fetched with ⟨valid, mayList, _⟩
  have admitted := (invalid_withCursor.mp valid).1
  refine ⟨admitted, mayList, ?_⟩
  intro page entry later inside present
  apply cursors_of_followed unique admitted.1 followed at_start page entry later
  · rw [Nat.zero_add]
    exact inside
  · rw [Nat.zero_add]
    exact present

theorem pagesComplete_of_cursorsReturn (unique : UniqueNames store.accounts)
    (admitted : query.Admitted) (mayList : MayList store authority kind)
    (returns : CursorsReturn store authority kind query) :
    PagesComplete store authority kind query := by
  rcases exists_accountPages unique admitted mayList returns with ⟨pages, followed⟩
  refine ⟨pages, followed, ?_⟩
  rw [pages_accounts unique admitted.1 followed at_start, List.drop_zero]
  exact listsAccounts_listing unique

end Listing

/-- In every state of the store the pages of a listing are complete exactly
when the listing is permitted and no page ends with a name that is refused as a
cursor; and `all_accounts` returns all of up to 100000 accounts exactly when no
page of 200 does. -/
theorem account_pages_complete (env : Environment) (dummyPasswordHash : Text)
    (ops : List StoreOp) :
    let store := Runs.run (StoreOp.step env) (Store.initial dummyPasswordHash) ops
    forall authority kind,
      (forall query, PagesComplete store authority kind query ↔
        query.Admitted ∧ MayList store authority kind ∧
          CursorsReturn store authority kind query) ∧
      ((store.listing authority kind .all).length ≤ 100000 ->
        ((∃ accounts, store.allAccounts authority kind = .ok accounts ∧
            ListsAccounts store authority kind .all accounts) ↔
          MayList store authority kind ∧ CursorsReturn store authority kind .all)) := by
  intro store authority kind
  have unique : UniqueNames store.accounts := StoreOp.uniqueNames_run env dummyPasswordHash ops
  constructor
  · intro query
    constructor
    · intro complete
      exact complete.cursorsReturn unique
    · rintro ⟨admitted, mayList, returns⟩
      exact pagesComplete_of_cursorsReturn unique admitted mayList returns
  · intro few
    constructor
    · rintro ⟨accounts, collected, listed⟩
      rcases followed_of_allLoop collected with ⟨pages, followed, same⟩
      rw [List.nil_append] at same
      rw [same] at listed
      exact (PagesComplete.cursorsReturn unique ⟨pages, followed, listed⟩).2
    · rintro ⟨mayList, returns⟩
      rcases exists_accountPages unique all_admitted mayList returns with ⟨pages, followed⟩
      have whole := pages_accounts unique all_admitted.1 followed at_start
      rw [List.drop_zero] at whole
      have short : (pages.flatMap AccountPage.items).length ≤ 100000 := by
        rw [whole, List.length_map]
        exact few
      refine ⟨_, allLoop_of_followed followed (Nat.lt_succ_of_le short) short, ?_⟩
      rw [List.nil_append, whole]
      exact listsAccounts_listing unique

namespace OneListing

def environment : Environment := ⟨⟨fun _ _ => .ok true⟩, fun _ => [], ⟨fun _ => 0⟩⟩

/-- Two Linux accounts are made. -/
def ops (first second : Text) : List StoreOp :=
  [.createRecord 1 0 .root ⟨first, 1000, 1000, "/home/a".toList, .linux, .user, none, none⟩ none none,
    .createRecord 2 0 .root ⟨second, 1001, 1001, "/home/b".toList, .linux, .user, none, none⟩ none
      none]

def byOne : AccountQuery := { AccountQuery.standard with limit := 1 }

end OneListing

/-- Names that are all taken back are taken back at the ends of pages. -/
theorem cursorsReturn_of_all {store : Store} {authority : Authority} {kind : AccountKind}
    {query : AccountQuery} (all : (store.listing authority kind query).all (fun entry =>
      !AccountQuery.refusesCursor entry.2.username) = true) :
    CursorsReturn store authority kind query := by
  intro page entry _ _ present
  have back := List.all_eq_true.mp all entry (List.mem_of_getElem? present)
  exact Bool.not_eq_true' _ ▸ back

open OneListing in
theorem two_accounts_listed :
    let store := Runs.run (StoreOp.step environment) (Store.initial [])
      (ops "ann".toList "bob".toList)
    PagesComplete store .root .linux byOne ∧
      ∃ accounts, store.allAccounts .root .linux = .ok accounts ∧
        ListsAccounts store .root .linux .all accounts := by
  intro store
  have pages := account_pages_complete environment [] (ops "ann".toList "bob".toList) .root .linux
  have mayList : MayList store .root .linux := ⟨none, rfl, fun _ given => nomatch given⟩
  constructor
  · exact (pages.1 byOne).mpr ⟨⟨by decide, by decide, fun _ given => nomatch given⟩, mayList,
      cursorsReturn_of_all (by decide)⟩
  · exact (pages.2 (by decide)).mpr ⟨mayList, cursorsReturn_of_all (by decide)⟩

open OneListing in
/-- Behind an account whose name ends in a line feed no page can be read. -/
theorem line_feed_ends_listing :
    let store := Runs.run (StoreOp.step environment) (Store.initial [])
      (ops "ann\n".toList "bob".toList)
    byOne.Admitted ∧ MayList store .root .linux ∧
      (store.listing .root .linux byOne).length = 2 ∧
      ¬ PagesComplete store .root .linux byOne := by
  intro store
  refine ⟨⟨by decide, by decide, fun _ given => nomatch given⟩,
    ⟨none, rfl, fun _ given => nomatch given⟩, by decide, ?_⟩
  intro complete
  have returns := (complete.cursorsReturn (StoreOp.uniqueNames_run environment [] _)).2.2
  have first : ((store.listing .root .linux byOne)[1 * byOne.limit - 1]?).map (fun entry =>
      entry.2.username) = some "ann\n".toList := by decide
  rcases Option.map_eq_some_iff.mp first with ⟨entry, present, named⟩
  have back := returns 1 entry (by decide) (by decide) present
  rw [named] at back
  revert back
  decide

end TealDrive
