import Mathlib.Data.List.Induction
import Mathlib.Data.List.Nodup
import TealDrive.Library.Pages

/-!
# Keyset pages of a listing that changes

Every item has a mark, and a listing goes downwards in the marks.  A page is
asked for with a mark and covers some stretch of what stands below it; of the
stretch it shows the items that are wanted, and its cursor is the mark of the
last item of the stretch, wanted or not.

The listing may be another one at every page.  The pages of a reader still hold
nothing twice, and they hold every item that was there and wanted at each of
the moments at which a page was read.
-/

namespace Keyset

universe u v w x y

variable {Item : Type u} {Mark : Type v} [LT Mark] {mark : Item -> Mark}

/-- What is listed below a mark: every stored item there, from the highest mark
downwards. -/
structure Stands (mark : Item -> Mark) (stored : Item -> Prop) (cursor : Option Mark)
    (items : List Item) : Prop where
  sorted : items.Pairwise (fun first second => mark second < mark first)
  mem : forall item, item ∈ items ↔ stored item ∧ forall above, cursor = some above -> mark item < above

/-- A page that covers a stretch of what is left. -/
structure Covers (mark : Item -> Mark) (wants : Item -> Bool) (left page : List Item)
    (next : Option Mark) (count : Nat) : Prop where
  items : page = (left.take count).filter wants
  ends : (next = none ∧ count = left.length) ∨
    ∃ item, 0 < count ∧ left[count - 1]? = some item ∧ next = some (mark item)

section Stretch

variable {wants : Item -> Bool}

/-- The end of a list that is not wanted may be left out. -/
theorem exists_take_filter (items : List Item) (some : items.filter wants ≠ []) :
    ∃ count item, 0 < count ∧ items[count - 1]? = Option.some item ∧
      (items.take count).filter wants = items.filter wants ∧
      (items.filter wants).getLast? = Option.some item := by
  induction items using List.reverseRecOn with
  | nil => exact absurd rfl some
  | append_singleton front last ih =>
      cases wanted : wants last with
      | true =>
          refine ⟨front.length + 1, last, Nat.succ_pos _, ?_, ?_, ?_⟩
          · simp
          · rw [List.take_of_length_le (by simp)]
          · simp [List.filter_append, wanted]
      | false =>
          have same : (front ++ [last]).filter wants = front.filter wants := by
            simp [List.filter_append, wanted]
          rw [same] at some ⊢
          rcases ih some with ⟨count, item, positive, present, taken, final⟩
          have inside : count - 1 < front.length := (List.getElem?_eq_some_iff.mp present).1
          refine ⟨count, item, positive, ?_, ?_, final⟩
          · rw [List.getElem?_append_left inside]
            exact present
          · rw [List.take_append_of_le_length (by omega)]
            exact taken

end Stretch

section Order

variable (asymmetric : forall first second : Mark, first < second -> ¬ second < first)

include asymmetric in

theorem Stands.nodup {stored : Item -> Prop} {cursor : Option Mark} {items : List Item}
    (stands : Stands mark stored cursor items) : items.Nodup := by
  refine stands.sorted.imp ?_
  intro first second less same
  rw [same] at less
  exact asymmetric _ _ less less

include asymmetric in
/-- There is one such list. -/
theorem Stands.unique {stored : Item -> Prop} {cursor : Option Mark} {first second : List Item}
    (left : Stands mark stored cursor first) (right : Stands mark stored cursor second) :
    first = second := by
  have perm : first.Perm second :=
    (List.perm_ext_iff_of_nodup (left.nodup asymmetric) (right.nodup asymmetric)).mpr
      (fun item => (left.mem item).trans (right.mem item).symm)
  exact Pages.eq_of_perm (fun one other => asymmetric (mark other) (mark one)) perm left.sorted
    right.sorted

variable (transitive : forall first second third : Mark, first < second -> second < third ->
  first < third)

include asymmetric transitive in
/-- Below the mark of a listed item stands what follows the item. -/
theorem Stands.drop {stored : Item -> Prop} {cursor : Option Mark} {items : List Item}
    (stands : Stands mark stored cursor items) {place : Nat} {item : Item}
    (here : items[place]? = some item) :
    Stands mark stored (some (mark item)) (items.drop (place + 1)) where
  sorted := stands.sorted.sublist (List.drop_sublist _ _)
  mem := by
    classical
    intro other
    have least := ((stands.mem item).mp (List.mem_of_getElem? here)).2
    rw [← Pages.filter_before_eq_drop (fun one two => asymmetric (mark two) (mark one))
      stands.sorted here, List.mem_filter, decide_eq_true_eq, stands.mem other]
    constructor
    · rintro ⟨⟨present, _⟩, less⟩
      exact ⟨present, fun above same => Option.some.inj same ▸ less⟩
    · rintro ⟨present, less⟩
      have below := less _ rfl
      exact ⟨⟨present, fun above given => transitive _ _ _ below (least above given)⟩, below⟩

section Following

variable {Page : Type w} {Error : Type x} {fetch : Option Mark -> Except Error Page}
  {next : Page -> Option Mark}

include asymmetric transitive in
/-- An unchanged listing is read to its end. -/
theorem exists_followed {stored : Item -> Prop} {wants : Item -> Bool} {items : Page -> List Item}
    (good : Option Mark -> Prop) (left : Option Mark -> List Item)
    (stands : forall cursor, Stands mark stored cursor (left cursor))
    (step : forall cursor, good cursor -> ∃ page count, fetch cursor = .ok page ∧
      Covers mark wants (left cursor) (items page) (next page) count ∧
      forall later, next page = some later -> good (some later))
    {cursor : Option Mark} (start : good cursor) :
    ∃ pages, Pages.Followed fetch next cursor pages := by
  apply Pages.exists_followed good (fun cursor => (left cursor).length) _ start
  intro cursor here
  rcases step cursor here with ⟨page, count, fetched, covers, still⟩
  refine ⟨page, fetched, ?_⟩
  intro later goes
  refine ⟨still later goes, ?_⟩
  rcases covers.ends with ⟨none, _⟩ | ⟨item, positive, last, some⟩
  · rw [none] at goes
    cases goes
  · rw [some, Option.some.injEq] at goes
    have inside : count - 1 < (left cursor).length := (List.getElem?_eq_some_iff.mp last).1
    have rest := (stands (.some (mark item))).unique asymmetric
      ((stands cursor).drop asymmetric transitive last)
    rw [← goes, rest, List.length_drop]
    omega

end Following

/-! ## Moments -/

/-- A page shows the wanted items between its cursors. -/
structure Between (mark : Item -> Mark) (wanted : Item -> Prop) (cursor next : Option Mark)
    (page : List Item) : Prop where
  sorted : page.Pairwise (fun first second => mark second < mark first)
  mem : forall item, item ∈ page ↔ wanted item ∧
    (forall above, cursor = some above -> mark item < above) ∧
    (forall below, next = some below -> ¬ mark item < below)
  advances : forall above below, cursor = some above -> next = some below -> below < above

include asymmetric transitive in
theorem Covers.between {stored : Item -> Prop} {wants : Item -> Bool} {cursor next : Option Mark}
    {left page : List Item} {count : Nat} (stands : Stands mark stored cursor left)
    (covers : Covers mark wants left page next count) :
    Between mark (fun item => stored item ∧ wants item = true) cursor next page := by
  refine ⟨?_, ?_, ?_⟩
  · rw [covers.items]
    exact (stands.sorted.sublist (List.take_sublist _ _)).filter _
  · intro item
    rw [covers.items, List.mem_filter]
    rcases covers.ends with ⟨none, whole⟩ | ⟨final, positive, last, some⟩
    · rw [whole, List.take_length, stands.mem item, none]
      constructor
      · rintro ⟨⟨present, above⟩, wanted⟩
        refine ⟨⟨present, wanted⟩, above, ?_⟩
        intro below given
        cases given
      · rintro ⟨⟨present, wanted⟩, above, _⟩
        exact ⟨⟨present, above⟩, wanted⟩
    · have behind := stands.drop asymmetric transitive last
      rw [Nat.sub_add_cancel positive] at behind
      have whole : left.take count ++ left.drop count = left := List.take_append_drop count left
      have apart := List.nodup_append.mp (whole.symm ▸ stands.nodup asymmetric)
      constructor
      · rintro ⟨taken, wanted⟩
        have present := (stands.mem item).mp (List.mem_of_mem_take taken)
        refine ⟨⟨present.1, wanted⟩, present.2, ?_⟩
        intro below given less
        rw [some, Option.some.injEq] at given
        have later : item ∈ left.drop count :=
          (behind.mem item).mpr ⟨present.1, fun above same => Option.some.inj same ▸ given ▸ less⟩
        exact apart.2.2 item taken item later rfl
      · rintro ⟨⟨present, wanted⟩, above, notBelow⟩
        refine ⟨?_, wanted⟩
        have listed : item ∈ left.take count ++ left.drop count :=
          whole.symm ▸ (stands.mem item).mpr ⟨present, above⟩
        rcases List.mem_append.mp listed with taken | later
        · exact taken
        · exact absurd (((behind.mem item).mp later).2 _ rfl) (notBelow _ some)
  · intro above below given goes
    rcases covers.ends with ⟨none, _⟩ | ⟨final, _, last, some⟩
    · rw [none] at goes
      cases goes
    · rw [some, Option.some.injEq] at goes
      exact goes ▸ ((stands.mem final).mp (List.mem_of_getElem? last)).2 above given

section Moments

variable {Moment : Type w} {Page : Type x} {Error : Type y}

omit [LT Mark] in
/-- The pages that a reader sees who asks for each at a moment of its own. -/
inductive Browsed (fetch : Moment -> Option Mark -> Except Error Page)
    (next : Page -> Option Mark) : Option Mark -> List Moment -> List Page -> Prop
  | last {cursor moment page} : fetch moment cursor = .ok page -> next page = none ->
      Browsed fetch next cursor [moment] [page]
  | more {cursor moment page later moments pages} : fetch moment cursor = .ok page ->
      next page = some later -> Browsed fetch next (some later) moments pages ->
      Browsed fetch next cursor (moment :: moments) (page :: pages)

variable {fetch : Moment -> Option Mark -> Except Error Page} {next : Page -> Option Mark}

omit [LT Mark] in
/-- A reader may ask for all pages at one moment. -/
theorem browsed_of_followed {moment : Moment} {cursor : Option Mark} {pages : List Page}
    (followed : Pages.Followed (fetch moment) next cursor pages) :
    Browsed fetch next cursor (pages.map (fun _ => moment)) pages := by
  induction followed with
  | last fetched ends => exact .last fetched ends
  | more fetched goes _ ih => exact .more fetched goes ih

/-- What a reader gets below a mark. -/
structure Read (mark : Item -> Mark) (wanted : Moment -> Item -> Prop) (cursor : Option Mark)
    (moments : List Moment) (items : List Item) : Prop where
  sorted : items.Pairwise (fun first second => mark second < mark first)
  sound : forall item, item ∈ items ->
    (∃ moment, moment ∈ moments ∧ wanted moment item) ∧
      forall above, cursor = some above -> mark item < above
  complete : forall item, (forall moment, moment ∈ moments -> wanted moment item) ->
    (forall above, cursor = some above -> mark item < above) -> item ∈ items

include transitive in
/-- Pages between their cursors fit together. -/
theorem Browsed.read (good : Option Mark -> Prop) (allowed : Moment -> Prop)
    {wanted : Moment -> Item -> Prop} {items : Page -> List Item}
    (below : forall first second third : Mark, first < second -> ¬ third < second -> first < third)
    (step : forall moment cursor page, allowed moment -> good cursor ->
      fetch moment cursor = .ok page ->
      Between mark (wanted moment) cursor (next page) (items page) ∧
        forall later, next page = some later -> good (some later))
    {cursor : Option Mark} {moments : List Moment} {pages : List Page}
    (browsed : Browsed fetch next cursor moments pages) (start : good cursor)
    (all : forall moment, moment ∈ moments -> allowed moment) :
    Read mark wanted cursor moments (pages.flatMap items) := by
  induction browsed with
  | @last cursor moment page fetched ends =>
      have between := (step _ _ _ (all moment List.mem_cons_self) start fetched).1
      rw [List.flatMap_singleton]
      refine ⟨between.sorted, ?_, ?_⟩
      · intro item member
        rcases (between.mem item).mp member with ⟨wanted, above, _⟩
        exact ⟨⟨moment, List.mem_cons_self, wanted⟩, above⟩
      · intro item always above
        refine (between.mem item).mpr ⟨always moment List.mem_cons_self, above, ?_⟩
        intro later given
        rw [ends] at given
        cases given
  | @more cursor moment page later moments pages fetched goes _ ih =>
      rcases step _ _ _ (all moment List.mem_cons_self) start fetched with ⟨between, still⟩
      have rest := ih (still later goes) (fun other member => all other (List.mem_cons_of_mem _ member))
      rw [List.flatMap_cons]
      refine ⟨?_, ?_, ?_⟩
      · rw [List.pairwise_append]
        refine ⟨between.sorted, rest.sorted, ?_⟩
        intro first member second behind
        exact below _ _ _ ((rest.sound second behind).2 later rfl)
          (((between.mem first).mp member).2.2 later goes)
      · intro item member
        rcases List.mem_append.mp member with here | behind
        · rcases (between.mem item).mp here with ⟨wanted, above, _⟩
          exact ⟨⟨moment, List.mem_cons_self, wanted⟩, above⟩
        · rcases rest.sound item behind with ⟨⟨other, listed, wanted⟩, less⟩
          refine ⟨⟨other, List.mem_cons_of_mem _ listed, wanted⟩, ?_⟩
          intro above given
          exact transitive _ _ _ (less later rfl) (between.advances above later given goes)
      · intro item always above
        rw [List.mem_append]
        by_cases behind : mark item < later
        · right
          refine rest.complete item (fun other member => always other (List.mem_cons_of_mem _ member)) ?_
          intro bound same
          exact Option.some.inj same ▸ behind
        · left
          refine (between.mem item).mpr ⟨always moment List.mem_cons_self, above, ?_⟩
          intro bound given
          rw [goes, Option.some.injEq] at given
          exact given ▸ behind

end Moments

end Order

end Keyset
