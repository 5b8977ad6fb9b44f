import TealDrive.Accounts.History
import TealDrive.Accounts.UndoOnce
import TealDrive.Library.Keyset

namespace TealDrive

open Outcome

/-!
# The history is complete

What one page covers is a stretch of the journal: it holds every record of the
stretch that the caller wants, and its cursor is the last key of the stretch.
Stretches follow each other without a gap, so the pages together hold every
wanted record once.  New operations may begin between two pages; a record that
was there from the start is still found in exactly one of them.
-/

/-! ## Scanning -/

section Scan

variable {format : JournalFormat} {wants : OperationRecord -> Bool} {limit : Nat}

/-- A stretch of records was scanned. -/
structure Scanned (format : JournalFormat) (wants : OperationRecord -> Bool)
    (records : List OperationRecord) (before after : HistoryScan) (count : Nat) : Prop where
  bound : count ≤ records.length
  items : after.items = before.items ++ (records.take count).filter wants
  scanned : after.scanned = before.scanned + count
  cursor : (count = 0 ∧ after.cursor = before.cursor) ∨
    ∃ record, 0 < count ∧ records[count - 1]? = some record ∧
      after.cursor = some (record.key.text format)

theorem Scanned.none (records : List OperationRecord) (scan : HistoryScan) :
    Scanned format wants records scan scan 0 where
  bound := Nat.zero_le _
  items := by simp
  scanned := rfl
  cursor := Or.inl ⟨rfl, rfl⟩

/-- What was scanned of a front was scanned of the whole. -/
theorem Scanned.of_take {records : List OperationRecord} {before after : HistoryScan}
    {count size : Nat} (scanned : Scanned format wants (records.take size) before after count) :
    Scanned format wants records before after count where
  bound := Nat.le_trans scanned.bound (List.length_take_le' _ _)
  items := by
    have bound := scanned.bound
    rw [List.length_take] at bound
    rw [scanned.items, List.take_take, Nat.min_eq_left (Nat.le_trans bound (Nat.min_le_left _ _))]
  scanned := scanned.scanned
  cursor := by
    rcases scanned.cursor with nothing | ⟨record, positive, last, cursor⟩
    · exact Or.inl nothing
    · refine Or.inr ⟨record, positive, ?_, cursor⟩
      rw [List.getElem?_take] at last
      split at last
      · exact last
      · cases last

/-- Two stretches after each other. -/
theorem Scanned.trans {records : List OperationRecord} {before middle after : HistoryScan}
    {first second : Nat} (left : Scanned format wants records before middle first)
    (right : Scanned format wants (records.drop first) middle after second) :
    Scanned format wants records before after (first + second) where
  bound := by
    have one := left.bound
    have other := right.bound
    rw [List.length_drop] at other
    omega
  items := by
    rw [right.items, left.items, List.append_assoc, ← List.filter_append, ← List.take_add]
  scanned := by
    rw [right.scanned, left.scanned, Nat.add_assoc]
  cursor := by
    rcases right.cursor with ⟨nothing, same⟩ | ⟨record, positive, last, cursor⟩
    · rw [nothing, same, Nat.add_zero]
      exact left.cursor
    · refine Or.inr ⟨record, by omega, ?_, cursor⟩
      rw [List.getElem?_drop] at last
      rw [← last]
      congr 1
      omega

theorem scanned_look (record : OperationRecord) (rest : List OperationRecord)
    (scan : HistoryScan) :
    Scanned format wants (record :: rest) scan (scan.look format wants record) 1 := by
  refine ⟨Nat.le_add_left 1 _, ?_, rfl, Or.inr ⟨record, Nat.one_pos, rfl, rfl⟩⟩
  cases wanted : wants record <;> simp [HistoryScan.look, wanted]

/-- A page runs over with a record that it wants. -/
theorem look_over {scan : HistoryScan} {record : OperationRecord}
    (room : scan.items.length ≤ limit)
    (surplus : (scan.look format wants record).items.length > limit) :
    wants record = true ∧ (scan.look format wants record).items.length = limit + 1 := by
  cases wanted : wants record with
  | true =>
      simp only [HistoryScan.look, wanted, if_true, List.length_append,
        List.length_singleton] at surplus ⊢
      exact ⟨trivial, by omega⟩
  | false =>
      simp only [HistoryScan.look, wanted, Bool.false_eq_true, if_false] at surplus
      omega

/-- How the scan of some records ended: at their end, or at the record that
made the page run over. -/
structure Ended (wants : OperationRecord -> Bool) (limit : Nat) (records : List OperationRecord)
    (after : HistoryScan) (surplus : Bool) (count : Nat) : Prop where
  within : surplus = false -> count = records.length ∧ after.items.length ≤ limit
  beyond : surplus = true -> 0 < count ∧ after.items.length = limit + 1 ∧
    ∃ record, records[count - 1]? = some record ∧ wants record = true

theorem scanBatch_spec (batch : List OperationRecord) (scan : HistoryScan)
    (room : scan.items.length ≤ limit) :
    ∃ count, Scanned format wants batch scan (scanBatch format wants limit batch scan).1 count ∧
      Ended wants limit batch (scanBatch format wants limit batch scan).1
        (scanBatch format wants limit batch scan).2 count := by
  induction batch generalizing scan with
  | nil => exact ⟨0, .none _ _, ⟨fun _ => ⟨rfl, room⟩, fun surplus => (by cases surplus)⟩⟩
  | cons record rest ih =>
      have one : Scanned format wants (record :: rest) scan (scan.look format wants record) 1 :=
        scanned_look record rest scan
      by_cases surplus : (scan.look format wants record).items.length > limit
      · rcases look_over room surplus with ⟨wanted, full⟩
        have stops : scanBatch format wants limit (record :: rest) scan =
            (scan.look format wants record, true) := if_pos surplus
        rw [stops]
        exact ⟨1, one, ⟨fun within => (by cases within), fun _ => ⟨Nat.one_pos, full, record, rfl,
          wanted⟩⟩⟩
      · have goesOn : scanBatch format wants limit (record :: rest) scan =
            scanBatch format wants limit rest (scan.look format wants record) := if_neg surplus
        rw [goesOn]
        rcases ih _ (Nat.not_lt.mp surplus) with ⟨count, scanned, ended⟩
        refine ⟨1 + count, one.trans scanned, ⟨?_, ?_⟩⟩
        · intro within
          rcases ended.within within with ⟨same, fits⟩
          refine ⟨?_, fits⟩
          rw [same, List.length_cons, Nat.add_comm]
        · intro beyond
          rcases ended.beyond beyond with ⟨positive, full, last, present, wanted⟩
          refine ⟨by omega, full, last, ?_, wanted⟩
          have shift : 1 + count - 1 = count - 1 + 1 := by omega
          rw [shift, List.getElem?_cons_succ]
          exact present

end Scan

/-! ## Texts of keys -/

/-- `Uuid::to_string` on 128-bit identifiers. -/
structure UuidTexts (format : JournalFormat) : Prop where
  length : forall id, id < 2 ^ 128 -> (format.idText id).length = 36
  symbols : forall id, id < 2 ^ 128 -> forall symbol, symbol ∈ format.idText id ->
    uuidSymbol symbol = true
  distinct : forall first second, first < 2 ^ 128 -> second < 2 ^ 128 ->
    format.idText first = format.idText second -> first = second

/-- The parts of a key fit their types. -/
structure OperationKey.Fits (key : OperationKey) : Prop where
  account : key.accountId < 2 ^ 128
  time : key.createdAt < 2 ^ 64
  id : key.id < 2 ^ 128

/-- A text of printable ASCII. -/
def Printable (text : Text) : Prop :=
  forall symbol, symbol ∈ text -> 32 ≤ symbol.toNat ∧ symbol.toNat < 127

theorem Printable.append {first second : Text} (left : Printable first)
    (right : Printable second) : Printable (first ++ second) := by
  intro symbol member
  rcases List.mem_append.mp member with here | there
  · exact left symbol here
  · exact right symbol there

theorem Printable.noControl {text : Text} (printable : Printable text) :
    text.hasControl = false := by
  rw [Text.hasControl, List.any_eq_false]
  intro symbol member
  rcases printable symbol member with ⟨low, high⟩
  simp only [Bool.or_eq_true, Bool.and_eq_true, decide_eq_true_eq, not_or, not_and]
  omega

theorem Printable.len {text : Text} (printable : Printable text) : text.len = text.length := by
  induction text with
  | nil => rfl
  | cons symbol rest ih =>
      have single : symbol.utf8Size = 1 := by
        have high := (printable symbol List.mem_cons_self).2
        rw [Char.utf8Size_eq_one_iff]
        exact UInt32.le_iff_toNat_le.mpr (Nat.le_of_lt high)
      have tail := ih (fun other member => printable other (List.mem_cons_of_mem _ member))
      rw [Text.len] at tail ⊢
      rw [List.map_cons, List.sum_cons, tail, single, List.length_cons, Nat.add_comm]

theorem printable_of_uuid {text : Text} (symbols : forall symbol, symbol ∈ text ->
    uuidSymbol symbol = true) : Printable text := by
  intro symbol member
  have listed : symbol ∈ "0123456789abcdef-".toList :=
    List.contains_iff_mem.mp (symbols symbol member)
  have all : forall known, known ∈ "0123456789abcdef-".toList ->
      32 ≤ known.toNat ∧ known.toNat < 127 := Text.forall_mem (by decide)
  exact all symbol listed

theorem length_paddedTime {time : Nat} (fits : time < 2 ^ 64) : (paddedTime time).length = 20 := by
  have digits : (Nat.toDigits 10 time).length ≤ 20 := by
    rw [Nat.length_toDigits_le_iff (by decide) (by decide)]
    omega
  rw [paddedTime, List.length_append, List.length_replicate]
  omega

theorem paddedTime_injective {first second : Nat}
    (same : paddedTime first = paddedTime second) : first = second := by
  have value : forall time, Nat.ofDigitChars 10 (paddedTime time) 0 = time := by
    intro time
    rw [paddedTime, Nat.ofDigitChars_append, Nat.ofDigitChars_replicate_zero, Nat.mul_zero,
      Nat.ofDigitChars_ten_toDigits]
  rw [← value first, same, value]

theorem printable_paddedTime (time : Nat) : Printable (paddedTime time) := by
  intro symbol member
  have digit : symbol.isDigit = true := by
    rcases List.mem_append.mp member with zero | digit
    · rw [(List.mem_replicate.mp zero).2]
      rfl
    · exact Nat.isDigit_of_mem_toDigits (by decide) (by decide) digit
  rw [Char.isDigit, Bool.and_eq_true, decide_eq_true_eq, decide_eq_true_eq] at digit
  have low : 48 ≤ symbol.toNat := UInt32.le_iff_toNat_le.mp digit.1
  have high : symbol.toNat ≤ 57 := UInt32.le_iff_toNat_le.mp digit.2
  omega

theorem length_joined (lead first separator second third : Text) :
    (lead ++ first ++ separator ++ second ++ separator ++ third).length =
      lead.length + first.length + separator.length + second.length + separator.length +
        third.length := by
  simp only [List.length_append]

section Texts

variable {format : JournalFormat}

/-- A key that fits is taken back as a cursor. -/
theorem refusesCursor_text (texts : UuidTexts format) {key : OperationKey} (fits : key.Fits) :
    HistoryQuery.refusesCursor (key.text format) = false := by
  have separator : Printable ":".toList := Text.forall_mem (by decide)
  have lead : Printable "operation_v1:".toList := Text.forall_mem (by decide)
  have printable : Printable (key.text format) :=
    ((((lead.append (printable_of_uuid (texts.symbols _ fits.account))).append separator).append
      (printable_paddedTime _)).append separator).append
        (printable_of_uuid (texts.symbols _ fits.id))
  have short : (key.text format).length ≤ 160 := by
    have account := texts.length _ fits.account
    have time := length_paddedTime fits.time
    have id := texts.length _ fits.id
    have whole := length_joined "operation_v1:".toList (format.idText key.accountId) ":".toList
      (paddedTime key.createdAt) (format.idText key.id)
    have leadLength : "operation_v1:".toList.length = 13 := by decide
    have separatorLength : ":".toList.length = 1 := by decide
    rw [account, time, id, leadLength, separatorLength] at whole
    exact Nat.le_trans (Nat.le_of_eq whole) (by decide)
  rw [HistoryQuery.refusesCursor, printable.noControl, printable.len, Bool.or_false]
  exact decide_eq_false (Nat.not_lt.mpr short)

/-- Keys of one account that fit have different texts. -/
theorem text_injective (texts : UuidTexts format) {first second : OperationKey}
    (one : first.Fits) (other : second.Fits) (same : first.text format = second.text format) :
    first = second := by
  have ends := List.append_inj' same
    ((texts.length _ one.id).trans (texts.length _ other.id).symm)
  have padded : (paddedTime first.createdAt).length = (paddedTime second.createdAt).length :=
    (length_paddedTime one.time).trans (length_paddedTime other.time).symm
  have times := List.append_inj' (List.append_cancel_right ends.1) padded
  have accounts := List.append_inj' (List.append_cancel_right times.1)
    ((texts.length _ one.account).trans (texts.length _ other.account).symm)
  have account := texts.distinct _ _ one.account other.account accounts.2
  have time := paddedTime_injective times.2
  have id := texts.distinct _ _ one.id other.id ends.2
  cases first
  cases second
  cases account
  cases time
  cases id
  rfl

end Texts

/-! ## Rows by key -/

/-- The order of the texts. -/
theorem text_asymm (first second : Text) (less : first < second) : ¬ second < first :=
  List.lt_asymm less

theorem text_trans (first second third : Text) (less : first < second) (more : second < third) :
    first < third :=
  List.lt_trans less more

theorem text_below (first second third : Text) (less : first < second)
    (notLess : ¬ third < second) : first < third := by
  by_contra notLater
  have back : third ≤ first := not_lt.mp notLater
  have around : second ≤ first := le_trans (not_lt.mp notLess) back
  exact not_lt.mpr around less

/-- The keys of an account's records fit. -/
def KeysFit (store : Store) : Prop :=
  forall key record, store.operations.find key = some record -> key.Fits

section Rows

variable {format : JournalFormat} {store : Store} {actor : Uuid} {query : HistoryQuery}

/-- The mark of a record is the text of its key. -/
abbrev markOf (format : JournalFormat) (record : OperationRecord) : Text := record.key.text format

/-- The records of an account that a query asks for, apart from its cursor. -/
def Selected (format : JournalFormat) (store : Store) (actor : Uuid) (query : HistoryQuery)
    (record : OperationRecord) : Prop :=
  store.operations.find record.key = some record ∧ record.accountId = actor ∧
    query.selects format record = true

theorem mem_historyRows {row : OperationKey × OperationRecord} :
    row ∈ store.historyRows format actor query ↔
      row.1 = row.2.key ∧ Selected format store actor query row.2 ∧
        forall cursor, query.cursor = some cursor -> markOf format row.2 < cursor := by
  rw [Store.historyRows, List.mem_insertionSort, List.mem_filter, Bool.and_eq_true,
    Bool.and_eq_true, Option.all_eq_true]
  simp only [decide_eq_true_eq, OperationKey.ofAccount, beq_iff_eq]
  constructor
  · rintro ⟨member, ⟨own, below⟩, selected⟩
    have found : store.operations.find row.1 = some row.2 := Table.find_eq_some_iff.mpr member
    have keyed : row.2.key = row.1 := store.operations.keyed _ _ found
    rw [← keyed] at found own below
    exact ⟨keyed.symm, ⟨found, own, selected⟩, below⟩
  · rintro ⟨keyed, ⟨found, own, selected⟩, below⟩
    rw [← keyed] at found
    refine ⟨Table.find_eq_some_iff.mp found, ⟨?_, ?_⟩, selected⟩
    · rw [keyed]
      exact own
    · rw [keyed]
      exact below

/-- The rows read are what stands below the cursor. -/
theorem stands_historyRows (texts : UuidTexts format) (fits : KeysFit store) :
    Keyset.Stands (markOf format) (Selected format store actor query) query.cursor
      ((store.historyRows format actor query).map Prod.snd) where
  sorted := by
    have total : Std.Total (fun first second : OperationKey × OperationRecord =>
        second.1.text format ≤ first.1.text format) := ⟨fun _ _ => le_total _ _⟩
    have trans : IsTrans (OperationKey × OperationRecord) (fun first second =>
        second.1.text format ≤ first.1.text format) := ⟨fun _ _ _ less more => le_trans more less⟩
    have sorted : (store.historyRows format actor query).Pairwise (fun first second =>
        second.1.text format ≤ first.1.text format) := List.pairwise_insertionSort _ _
    have nodup : (store.historyRows format actor query).Nodup := by
      rw [Store.historyRows, (List.perm_insertionSort _ _).nodup_iff]
      exact (List.Nodup.of_map _ store.operations.table.unique).filter _
    rw [List.pairwise_map]
    refine (sorted.and nodup).imp_of_mem ?_
    intro first second left right both
    rcases mem_historyRows.mp left with ⟨firstKey, ⟨firstFound, _⟩, _⟩
    rcases mem_historyRows.mp right with ⟨secondKey, ⟨secondFound, _⟩, _⟩
    have least := both.1
    rw [firstKey, secondKey] at least
    by_contra notLess
    have same := le_antisymm least (not_lt.mp notLess)
    have key := text_injective texts (fits _ _ secondFound) (fits _ _ firstFound) same
    rw [key, firstFound] at secondFound
    have record := Option.some.inj secondFound
    exact both.2 (Prod.ext (by rw [firstKey, secondKey, record]) record)
  mem := by
    intro record
    rw [List.mem_map]
    constructor
    · rintro ⟨row, member, rfl⟩
      exact (mem_historyRows.mp member).2
    · intro selected
      exact ⟨(record.key, record), mem_historyRows.mpr ⟨rfl, selected⟩, rfl⟩

/-- Every stored record is of the version that can be read. -/
def VersionsRead (store : Store) : Prop :=
  forall key record, store.operations.find key = some record -> record.version = 1

/-- A loop that fails nowhere. -/
theorem mapM_eq_map {Value Result Error : Type} {function : Value -> Except Error Result}
    {results : Value -> Result} {values : List Value}
    (each : forall value, value ∈ values -> function value = .ok (results value)) :
    values.mapM function = .ok (values.map results) := by
  induction values with
  | nil => rfl
  | cons first rest ih =>
      rw [List.mapM_cons, each first List.mem_cons_self,
        ih (fun value member => each value (List.mem_cons_of_mem _ member))]
      rfl

/-- A cursor that `validate` takes. -/
def Accepted (cursor : Option Text) : Prop :=
  forall text, cursor = some text -> HistoryQuery.refusesCursor text = false

theorem accepted_none : Accepted none := by
  intro text given
  cases given

theorem accepted_some {text : Text} (taken : HistoryQuery.refusesCursor text = false) :
    Accepted (some text) := by
  intro other given
  exact Option.some.inj given ▸ taken

theorem validate_eq_ok_iff : query.validate format = .ok () ↔
    query.refuses format = false ∧ Accepted query.cursor := by
  rw [HistoryQuery.validate, Accepted, refuse_eq_ok, Bool.or_eq_false_iff, Option.any_eq_false]

/-- The conditions without the cursor do not depend on it, and 200 records may
always be asked for. -/
theorem refuses_batch {cursor : Option Text} (admitted : query.refuses format = false) :
    HistoryQuery.refuses format { query with limit := 200, cursor := cursor } = false := by
  simp only [HistoryQuery.refuses, Bool.or_eq_false_iff] at admitted ⊢
  exact ⟨⟨⟨⟨⟨⟨⟨⟨rfl, admitted.1.1.1.1.1.1.1.2⟩, admitted.1.1.1.1.1.1.2⟩, admitted.1.1.1.1.1.2⟩,
    admitted.1.1.1.1.2⟩, admitted.1.1.1.2⟩, admitted.1.1.2⟩, admitted.1.2⟩, admitted.2⟩

/-- A batch is the front of what stands below the cursor. -/
theorem operationRecordsFiltered_ok {authority : Authority} {account : Account}
    (versions : VersionsRead store) (valid : query.validate format = .ok ())
    (live : store.authorized authority = .ok (some account)) :
    store.operationRecordsFiltered format authority query =
      .ok (((store.historyRows format account.id query).map Prod.snd).take query.limit) := by
  have read : ((store.historyRows format account.id query).take query.limit).mapM
      (Store.readRecord account.id) =
        .ok (((store.historyRows format account.id query).take query.limit).map Prod.snd) := by
    apply mapM_eq_map
    intro row member
    rcases mem_historyRows.mp (List.mem_of_mem_take member) with ⟨_, ⟨found, own, _⟩, _⟩
    have version := versions _ _ found
    simp only [Store.readRecord, bind_eq_ok, refuse_eq_ok, pure_eq_ok]
    exact ⟨⟨⟩, by simp [version, own], ⟨⟩⟩
  rw [← List.map_take, ← read]
  simp only [Store.operationRecordsFiltered, valid, live]
  rfl

/-! ## One page -/

/-- Where the scan of all batches ended. -/
structure ScanEnd (format : JournalFormat) (wants : OperationRecord -> Bool) (limit : Nat)
    (left : List OperationRecord) (before after : HistoryScan) (hasMore : Bool) (count : Nat) :
    Prop where
  scanned : Scanned format wants left before after count
  finished : hasMore = false -> count = left.length ∧ after.items.length ≤ limit
  stopped : hasMore = true -> 0 < count ∧ (after.items.length ≤ limit ∨
    after.items.length = limit + 1 ∧
      ∃ record, left[count - 1]? = some record ∧ wants record = true)

/-- A scan that goes on where another one stopped. -/
theorem ScanEnd.after {wants : OperationRecord -> Bool} {limit first second : Nat}
    {left : List OperationRecord} {before middle after : HistoryScan} {hasMore : Bool}
    (scanned : Scanned format wants left before middle first)
    (ends : ScanEnd format wants limit (left.drop first) middle after hasMore second) :
    ScanEnd format wants limit left before after hasMore (first + second) where
  scanned := scanned.trans ends.scanned
  finished := by
    intro finished
    rcases ends.finished finished with ⟨whole, room⟩
    have bound := scanned.bound
    rw [List.length_drop] at whole
    exact ⟨by omega, room⟩
  stopped := by
    intro stopped
    rcases ends.stopped stopped with ⟨positive, room | ⟨full, record, present, wanted⟩⟩
    · exact ⟨by omega, Or.inl room⟩
    · refine ⟨by omega, Or.inr ⟨full, record, ?_, wanted⟩⟩
      rw [List.getElem?_drop] at present
      rw [← present]
      congr 1
      omega

/-- What is left to be read at a cursor. -/
def leftAt (format : JournalFormat) (store : Store) (actor : Uuid) (query : HistoryQuery)
    (cursor : Option Text) : List OperationRecord :=
  (store.historyRows format actor { query with cursor := cursor }).map Prod.snd

theorem stands_leftAt (texts : UuidTexts format) (fits : KeysFit store) (cursor : Option Text) :
    Keyset.Stands (markOf format) (Selected format store actor query) cursor
      (leftAt format store actor query cursor) := by
  have stands := @stands_historyRows format store actor { query with cursor := cursor } texts fits
  exact ⟨stands.sorted, stands.mem⟩

/-- Behind a record, what is left is what comes after it. -/
theorem leftAt_mark (texts : UuidTexts format) (fits : KeysFit store) {cursor : Option Text}
    {place : Nat} {record : OperationRecord}
    (here : (leftAt format store actor query cursor)[place]? = some record) :
    leftAt format store actor query (some (markOf format record)) =
      (leftAt format store actor query cursor).drop (place + 1) :=
  (stands_leftAt texts fits _).unique text_asymm
    ((stands_leftAt texts fits cursor).drop text_asymm text_trans here)

/-- The mark of a stored record is taken back. -/
theorem refusesCursor_mark (texts : UuidTexts format) (fits : KeysFit store)
    {cursor : Option Text} {place : Nat} {record : OperationRecord}
    (here : (leftAt format store actor query cursor)[place]? = some record) :
    HistoryQuery.refusesCursor (markOf format record) = false := by
  have found := (((stands_leftAt texts fits cursor).mem record).mp (List.mem_of_getElem? here)).1.1
  exact refusesCursor_text texts (fits _ _ found)

/-- Five batches are enough, since each but the last has 200 records. -/
theorem scanBatches_spec {authority : Authority} {account : Account}
    {wants : OperationRecord -> Bool} (texts : UuidTexts format) (fits : KeysFit store)
    (versions : VersionsRead store) (admitted : query.refuses format = false)
    (live : store.authorized authority = .ok (some account)) {left : Nat} {scan : HistoryScan}
    (accepted : Accepted scan.cursor)
    (room : scan.items.length ≤ query.limit) (enough : 1000 ≤ scan.scanned + 200 * left)
    (below : scan.scanned < 1000) :
    ∃ after hasMore count, scanBatches format store authority wants query left scan =
        .ok (after, hasMore) ∧
      ScanEnd format wants query.limit (leftAt format store account.id query scan.cursor) scan after
        hasMore count := by
  induction left generalizing scan with
  | zero => omega
  | succ left ih =>
      have batch : store.operationRecordsFiltered format authority
          { query with limit := 200, cursor := scan.cursor } =
            .ok ((leftAt format store account.id query scan.cursor).take 200) :=
        operationRecordsFiltered_ok versions
          (validate_eq_ok_iff.mpr ⟨refuses_batch admitted, accepted⟩) live
      have behind := fun (place : Nat) (record : OperationRecord) =>
        @leftAt_mark format store account.id query texts fits scan.cursor place record
      have taken := fun (place : Nat) (record : OperationRecord) =>
        @refusesCursor_mark format store account.id query texts fits scan.cursor place record
      generalize leftAt format store account.id query scan.cursor = records at batch behind taken ⊢
      rcases @scanBatch_spec format wants query.limit (records.take 200) scan room with
        ⟨count, scanned, ended⟩
      simp only [scanBatches, batch, bind, Except.bind]
      by_cases nothing : (records.take 200).isEmpty = true
      · have empty : records = [] := by
          cases records with
          | nil => rfl
          | cons _ _ => cases nothing
        rw [if_pos nothing, empty]
        refine ⟨scan, false, 0, rfl, .none _ _, fun _ => ⟨rfl, room⟩, ?_⟩
        intro more
        cases more
      · rw [if_neg nothing]
        generalize scanBatch format wants query.limit (records.take 200) scan = outcome at scanned ended
        rcases outcome with ⟨next, surplus⟩
        cases surplus with
        | true =>
            rcases ended.beyond rfl with ⟨positive, full, last, present, wanted⟩
            refine ⟨next, true, count, rfl, scanned.of_take, ?_, ?_⟩
            · intro finished
              cases finished
            · intro _
              rw [List.getElem?_take] at present
              split at present
              · exact ⟨positive, Or.inr ⟨full, last, present, wanted⟩⟩
              · cases present
        | false =>
            rcases ended.within rfl with ⟨whole, roomLeft⟩
            rw [List.length_take] at whole
            dsimp only
            by_cases short : (records.take 200).length < 200
            · rw [if_pos short]
              rw [List.length_take] at short
              refine ⟨next, false, count, rfl, scanned.of_take, ?_, ?_⟩
              · intro _
                exact ⟨by omega, roomLeft⟩
              · intro more
                cases more
            · rw [if_neg short]
              rw [List.length_take] at short
              by_cases full : next.scanned ≥ 1000
              · rw [if_pos full]
                refine ⟨next, true, count, rfl, scanned.of_take, ?_, ?_⟩
                · intro finished
                  cases finished
                · intro _
                  exact ⟨by omega, Or.inl roomLeft⟩
              · rw [if_neg full]
                have sum : next.scanned = scan.scanned + count := scanned.scanned
                rcases scanned.of_take.cursor with ⟨none, _⟩ | ⟨last, positive, present, named⟩
                · omega
                · have again : Accepted next.cursor := by
                    rw [named]
                    exact accepted_some (taken _ _ present)
                  rcases ih again roomLeft (by omega) (by omega) with
                    ⟨after, hasMore, more, found, finish⟩
                  have rest := behind _ _ present
                  rw [Nat.sub_add_cancel positive] at rest
                  rw [named, rest] at finish
                  refine ⟨after, hasMore, count + more, found, finish.after scanned.of_take⟩

/-- The page of a scan covers a stretch of what was left. -/
theorem pageOfScan_covers {wants : OperationRecord -> Bool} {limit count : Nat}
    {left : List OperationRecord} {cursor : Option Text} {after : HistoryScan} {hasMore : Bool}
    (positive : 1 ≤ limit)
    (ends : ScanEnd format wants limit left ⟨cursor, [], 0⟩ after hasMore count) :
    ∃ count, Keyset.Covers (markOf format) wants left (pageOfScan format limit after hasMore).items
      (pageOfScan format limit after hasMore).nextCursor count := by
  have found : after.items = (left.take count).filter wants := ends.scanned.items
  by_cases surplus : after.items.length > limit
  · -- The page ran over: the record that did not fit, and what was passed
    -- over since the last one that did, is left for the next page.
    have more : hasMore = true := by
      cases hasMore with
      | true => rfl
      | false => exact absurd surplus (Nat.not_lt.mpr (ends.finished rfl).2)
    rcases (ends.stopped more).2 with room | ⟨full, record, present, wanted⟩
    · exact absurd surplus (Nat.not_lt.mpr room)
    · have counted := (ends.stopped more).1
      have shorter : after.items.dropLast = (left.take (count - 1)).filter wants := by
        rw [found, ← Nat.sub_add_cancel counted, List.take_add_one, present]
        simp [wanted]
      have some : (left.take (count - 1)).filter wants ≠ [] := by
        intro none
        rw [none] at shorter
        have size := congrArg List.length shorter
        rw [List.length_dropLast, full, List.length_nil] at size
        omega
      rcases Keyset.exists_take_filter _ some with ⟨place, last, before, there, same, final⟩
      have inside : place ≤ count - 1 := by
        have bound := (List.getElem?_eq_some_iff.mp there).1
        rw [List.length_take] at bound
        omega
      rw [List.take_take, Nat.min_eq_left inside] at same
      rw [List.getElem?_take_of_lt (by omega)] at there
      refine ⟨place, ?_, Or.inr ⟨last, before, there, ?_⟩⟩
      · rw [same, ← shorter]
        simp only [pageOfScan, surplus, decide_true, if_true]
      · simp only [pageOfScan, surplus, decide_true, if_true, more]
        rw [shorter, final]
        rfl
  · refine ⟨count, ?_, ?_⟩
    · rw [← found]
      simp only [pageOfScan, surplus, decide_false, Bool.false_eq_true, if_false]
    · cases hasMore with
      | false => exact Or.inl ⟨rfl, (ends.finished rfl).1⟩
      | true =>
          rcases ends.scanned.cursor with ⟨none, _⟩ | ⟨last, counted, present, named⟩
          · exact absurd none (Nat.ne_of_gt (ends.stopped rfl).1)
          · refine Or.inr ⟨last, counted, present, ?_⟩
            simp only [pageOfScan, surplus, decide_false, Bool.false_eq_true, if_false, if_true]
            exact named

end Rows

/-! ## Journals that can be read -/

/-- Every stored record, and every one that is still to be written back, is of
the version that can be read. -/
structure VersionsKept (state : JournalState) : Prop where
  stored : VersionsRead state.store
  continued : forall record, record ∈ state.continued -> record.version = 1

namespace VersionsKept

variable {state : JournalState}

/-- A finished record was checked. -/
theorem finished {format : JournalFormat} {config : JournalConfig}
    {record finished : OperationRecord} {response : Option HelperResponse} {at_ : Nat}
    {store after : Store}
    (done : store.finishOperation format config record response at_ = .ok (finished, after)) :
    finished.version = 1 := by
  simp only [Store.finishOperation, bind_eq_ok, pure_eq_ok, Prod.mk.injEq] at done
  rcases done with ⟨current, _, closed, made, _, _, rfl, _⟩
  simp only [Store.finishedRecord, bind_eq_ok, refuse_eq_ok, Bool.or_eq_false_iff,
    bne_eq_false_iff_eq] at made
  rcases made with ⟨_, ⟨⟨⟨version, _⟩, _⟩, _⟩, made⟩
  cases response with
  | none =>
      cases made
      exact version
  | some response =>
      simp only [Store.withResponse, bind_eq_ok, pure_eq_ok] at made
      rcases made with ⟨_, _, _, _, rfl⟩
      cases response.auditMetadata with
      | none => exact version
      | some _ => exact version

/-- A rewritten record is read when the new one is. -/
theorem replaced (kept : VersionsKept state) {record : OperationRecord} (version : record.version = 1)
    {key : OperationKey} {found : OperationRecord}
    (located : (state.store.operations.replace record).find key = some found) :
    found.version = 1 := by
  by_cases same : key = record.key
  · subst same
    rw [Register.find_replace_self] at located
    rcases Option.map_eq_some_iff.mp located with ⟨_, _, rfl⟩
    exact version
  · rw [Register.find_replace_of_ne same] at located
    exact kept.stored key found located

theorem initial (store : Store) : VersionsKept (.initial store) where
  stored := by
    intro key record found
    cases found
  continued := fun _ member => absurd member List.not_mem_nil

theorem moves (kept : VersionsKept state) {format : JournalFormat} {ids : Nat -> Uuid}
    {step : JournalStep} {after : JournalState}
    (moves : JournalState.Moves format ids state step after) : VersionsKept after := by
  cases moves with
  | idle => exact kept
  | account op store tables =>
      refine ⟨?_, kept.continued⟩
      unfold VersionsRead
      rw [tables.operations]
      exact kept.stored
  | restore now actor store tables =>
      refine ⟨?_, kept.continued⟩
      unfold VersionsRead
      rw [tables.operations]
      exact kept.stored
  | read config actor request offset at_ previous record found accepted =>
      rcases Store.continuedRecord_ok accepted with ⟨_, _, _, _, _, _, rfl⟩
      have version : previous.version = 1 := kept.stored _ _ (Store.previousRecord_spec found).1
      refine ⟨kept.stored, ?_⟩
      intro other member
      rcases List.mem_cons.mp member with here | before
      · rw [here]
        exact version
      · exact kept.continued other before
  | write record checked =>
      have version := kept.continued record checked
      exact ⟨fun _ _ located => kept.replaced version located, kept.continued⟩
  | insert config ledger actor request epoch at_ record store known made inserted =>
      rcases Store.insertRecord_ok inserted with ⟨_, _, _, effect⟩
      refine ⟨?_, kept.continued⟩
      intro key found located
      rw [effect.stored] at located
      by_cases same : key = record.key
      · subst same
        rw [Register.find_insert_self] at located
        cases located
        rw [made]
        rfl
      · rw [Register.find_insert_of_ne same] at located
        exact kept.stored key found (effect.rotates.origin located)
  | finish config record logReserveBytes logStorage response at_ finished store known done =>
      have version := VersionsKept.finished done
      rcases Store.finishOperation_ok done with ⟨_, _, _, _, _, _, stored⟩
      refine ⟨?_, kept.continued⟩
      intro key found located
      rw [stored] at located
      exact kept.replaced version located
  | delete row =>
      refine ⟨?_, kept.continued⟩
      intro key record found
      change (state.store.operations.filter _).find key = some record at found
      rw [Register.find_filter, Option.filter_eq_some_iff] at found
      exact kept.stored key record found.1
  | claim config authority operationId expectedState at_ caller row record claims =>
      have before : record.version = 1 := kept.stored _ _ claims.found
      have version : (Store.claimedRecord record).version = 1 := before
      exact ⟨fun _ _ located => kept.replaced version located, kept.continued⟩
  | finishUndo config now record response current found =>
      have before : current.version = 1 := kept.stored _ _ found
      have version : (Store.settledRecord now response current).version = 1 := before
      exact ⟨fun _ _ located => kept.replaced version located, kept.continued⟩
  | drew | drawEpoch | readEpoch | sweep | cleanTrash | cleanStaging | reviewTrash
  | reviewStaging => exact ⟨kept.stored, kept.continued⟩

end VersionsKept

/-- Operations of the journal have identifiers of their own. -/
def OwnIds (store : Store) : Prop :=
  forall first second, store.operations.find first.key = some first ->
    store.operations.find second.key = some second -> first.id = second.id -> first = second

theorem ClaimsKept.ownIds {ids : Nat -> Uuid} {state : JournalState} (kept : ClaimsKept ids state) :
    OwnIds state.store := by
  intro first second firstFound secondFound same
  rcases (kept.rows _ _ firstFound).born with ⟨one, oneListed, oneDescends⟩
  rcases (kept.rows _ _ secondFound).born with ⟨other, otherListed, otherDescends⟩
  have equal : one = other := kept.unique one other oneListed otherListed
    (oneDescends.id.symm.trans (same.trans otherDescends.id))
  have key : first.key = second.key := by
    rw [oneDescends.key, otherDescends.key, equal]
  rw [key, secondFound] at firstFound
  exact (Option.some.inj firstFound).symm

/-! ## Sessions -/

/-- What a page is read from. -/
structure HistoryMoment where
  store : Store
  drawn : Uuid
  at_ : Nat

section Command

variable (env : Environment) (format : JournalFormat) (ids : Nat -> Uuid)
  (session : HistorySession) (query : HistoryQuery)

/-- The page behind a cursor. -/
def HistoryMoment.fetch (moment : HistoryMoment) (cursor : Option Text) :
    Except GatewayFailure HistoryReply :=
  handleHistory format session moment.drawn moment.at_ { query with cursor := cursor } moment.store

/-- The session is served at the moment. -/
structure HistoryServed (moment : HistoryMoment) : Prop where
  reached : ∃ store steps,
    moment.store = (Runs.run (JournalState.step env format ids) (.initial store) steps).store
  fits : KeysFit moment.store
  enabled : session.config.journal.enabled = true
  valid : session.config.journal.valid = true
  query : query.refuses format = false
  session : ∃ actor view, moment.store.verifyGrant session.grant session.caller moment.at_ =
    .ok actor ∧ session.view actor = .ok view

/-- A record of the session's account that matches the filter and is visible,
and can be undone if only such are asked for. -/
def HistoryWanted (moment : HistoryMoment) (record : OperationRecord) : Prop :=
  ∃ actor view, moment.store.verifyGrant session.grant session.caller moment.at_ = .ok actor ∧
    session.view actor = .ok view ∧ Selected format moment.store actor.id query record ∧
    historyWants view actor session.undoOnly record = true

end Command

section Served

variable {env : Environment} {format : JournalFormat} {ids : Nat -> Uuid}
  {session : HistorySession} {query : HistoryQuery} {moment : HistoryMoment}

theorem HistoryServed.read (distinct : Function.Injective ids)
    (served : HistoryServed env format ids session query moment) :
    VersionsRead moment.store ∧ OwnIds moment.store := by
  rcases served.reached with ⟨store, steps, same⟩
  rw [same]
  have kept : VersionsKept (Runs.run (JournalState.step env format ids) (.initial store) steps) ∧
      ClaimsKept ids (Runs.run (JournalState.step env format ids) (.initial store) steps) := by
    apply Runs.invariant (fun state => VersionsKept state ∧ ClaimsKept ids state)
    · intro state step kept
      have moves := state.step_moves env format ids step
      exact ⟨kept.1.moves moves, kept.2.moves distinct moves⟩
    · exact ⟨.initial store, .initial ids store⟩
  exact ⟨kept.1.stored, kept.2.ownIds⟩

/-- A verified account may act for itself. -/
theorem authorized_of_verifyGrant {store : Store} {grant : SessionGrant} {caller : CallerBinding}
    {at_ : Nat} {actor : Account} (verified : store.verifyGrant grant caller at_ = .ok actor) :
    store.authorized (.account actor.id actor.generation) = .ok (some actor) := by
  simp only [Store.verifyGrant, bind_eq_ok, refuse_eq_ok, pure_eq_ok] at verified
  rcases verified with ⟨target, restricted, _, _, rfl⟩
  rcases Store.verifyRestrictedGrant_ok restricted with
    ⟨_, _, _, row, found, _, login, active, rfl⟩
  have account : store.account grant.accountId = .ok (store.view grant.accountId row) := by
    rw [Store.account, found]
    rfl
  simp only [Store.authorized, bind_eq_ok, refuse_eq_ok, pure_eq_ok]
  refine ⟨_, account, ⟨⟩, ?_, rfl⟩
  simp [Store.view, login, active]

/-- A stored record is found under its identifier. -/
theorem ownOperation_of_found {store : Store} (own : OwnIds store) {record : OperationRecord}
    (found : store.operations.find record.key = some record) :
    store.ownOperation record.accountId record.id = some record := by
  have member : (record.key, record) ∈ store.operations.table.rows.filter (fun row =>
      row.1.ofAccount record.accountId && row.2.id == record.id) := by
    rw [List.mem_filter]
    refine ⟨Table.find_eq_some_iff.mp found, ?_⟩
    simp [OperationKey.ofAccount, OperationRecord.key]
  cases chosen : store.ownOperation record.accountId record.id with
  | none =>
      rw [Store.ownOperation, Option.map_eq_none_iff, List.head?_eq_none_iff, Table.select,
        List.take_eq_nil_iff] at chosen
      rcases chosen with impossible | empty
      · cases impossible
      · rw [empty] at member
        cases member
  | some other =>
      have spec := Store.ownOperation_spec chosen
      have named : other.id = record.id := by
        rw [Store.ownOperation] at chosen
        rcases Option.map_eq_some_iff.mp chosen with ⟨row, head, rfl⟩
        have condition := (Table.select_spec (List.mem_of_mem_head? head)).2
        simp only [Bool.and_eq_true, beq_iff_eq] at condition
        exact condition.2
      rw [own other record spec.1 found named]

/-- The candidates of a page are those of its records. -/
theorem candidates_ok {store : Store} {config : JournalConfig} {actor : Account} {epoch : Uuid}
    {at_ : Nat} (versions : VersionsRead store) (own : OwnIds store) (valid : config.valid = true)
    (live : store.authorized (.account actor.id actor.generation) = .ok (some actor))
    {records : List OperationRecord} (found : forall record, record ∈ records ->
      Selected format store actor.id query record) :
    ∃ items, records.mapM (fun record => store.undoCandidate config
        (.account actor.id actor.generation) record.id epoch at_) = .ok items ∧
      items.map (fun candidate => candidate.operation) = records := by
  have prefs : store.undoPreferencesOf (.account actor.id actor.generation) config =
      .ok ⟨actor.undoHours, min (actor.undoHours.getD config.undoMaxHours) config.undoMaxHours,
        config.undoMaxHours, store.undoRevision actor.id⟩ := by
    simp only [Store.undoPreferencesOf, Store.validateJournal, valid, live]
    rfl
  have each := @mapM_eq_map _ _ _ (fun record : OperationRecord => store.undoCandidate config
      (.account actor.id actor.generation) record.id epoch at_)
    (fun record => candidate record ⟨actor.undoHours,
      min (actor.undoHours.getD config.undoMaxHours) config.undoMaxHours, config.undoMaxHours,
      store.undoRevision actor.id⟩ epoch at_) records
  refine ⟨_, each ?_, ?_⟩
  · intro record member
    rcases found record member with ⟨stored, mine, _⟩
    have named : store.ownOperation actor.id record.id = some record :=
      mine ▸ ownOperation_of_found own stored
    simp only [Store.undoCandidate, bind_eq_ok, refuse_eq_ok, okOr_eq_ok, pure_eq_ok]
    refine ⟨_, live, actor, rfl, record, named, ⟨⟩, ?_, _, prefs, rfl⟩
    simp [mine, versions _ _ stored]
  · rw [List.map_map]
    exact List.map_id'' (fun _ => rfl) records

/-- A page is delivered, and it covers a stretch of what is left. -/
theorem HistoryServed.page (texts : UuidTexts format) (distinct : Function.Injective ids)
    (served : HistoryServed env format ids session query moment) {actor : Account}
    {view : AppConfig}
    (verified : moment.store.verifyGrant session.grant session.caller moment.at_ = .ok actor)
    (viewed : session.view actor = .ok view) {cursor : Option Text}
    (accepted : Accepted cursor) :
    ∃ reply count, moment.fetch format session query cursor = .ok reply ∧
      Keyset.Covers (markOf format) (historyWants view actor session.undoOnly)
        (leftAt format moment.store actor.id query cursor) reply.records reply.nextCursor count := by
  rcases served.read distinct with ⟨versions, own⟩
  have live := authorized_of_verifyGrant verified
  have admitted : HistoryQuery.refuses format { query with cursor := cursor } = false := served.query
  have valid : HistoryQuery.validate format { query with cursor := cursor } = .ok () :=
    validate_eq_ok_iff.mpr ⟨admitted, accepted⟩
  have positive : 1 ≤ query.limit := by
    have limits := served.query
    simp only [HistoryQuery.refuses, Bool.or_eq_false_iff, Bool.not_eq_false', Bool.and_eq_true,
      decide_eq_true_eq] at limits
    exact limits.1.1.1.1.1.1.1.1.1
  rcases @scanBatches_spec format moment.store { query with cursor := cursor }
      (.account actor.id actor.generation) actor (historyWants view actor session.undoOnly) texts
      served.fits versions admitted live 5 ⟨cursor, [], 0⟩ accepted (Nat.zero_le _)
      (Nat.le_refl 1000) (Nat.succ_pos 999) with ⟨after, hasMore, count, scanned, ends⟩
  rcases pageOfScan_covers positive ends with ⟨count, covers⟩
  have paged : historyPage format moment.store (.account actor.id actor.generation)
      (historyWants view actor session.undoOnly) { query with cursor := cursor } =
        .ok (pageOfScan format query.limit after hasMore) := by
    simp only [historyPage, scanned]
    rfl
  generalize pageOfScan format query.limit after hasMore = page at covers paged
  cases only : session.undoOnly with
  | false =>
      rw [only] at covers paged
      refine ⟨.history page, count, ?_, covers⟩
      simp only [HistoryMoment.fetch, handleHistory, bind_eq_ok, refuse_eq_ok, gateway_eq_ok, only]
      exact ⟨⟨⟩, by simp [served.enabled], ⟨⟩, valid, actor, verified, view, viewed, page, paged, rfl⟩
  | true =>
      rw [only] at covers paged
      have found : forall record, record ∈ page.items ->
          Selected format moment.store actor.id query record := by
        intro record member
        rw [covers.items, List.mem_filter] at member
        exact (((stands_leftAt texts served.fits cursor).mem record).mp
          (List.mem_of_mem_take member.1)).1
      rcases @candidates_ok format query moment.store session.config.journal actor
        (moment.store.undoEpoch.getD moment.drawn) moment.at_ versions own served.valid live
        page.items found with ⟨items, done, same⟩
      refine ⟨.undoPage items page.nextCursor page.hasMore, count, ?_, ?_⟩
      · simp only [HistoryMoment.fetch, handleHistory, bind_eq_ok, refuse_eq_ok, gateway_eq_ok, only]
        refine ⟨⟨⟩, by simp [served.enabled], ⟨⟩, valid, actor, verified, view, viewed, page, paged,
          ?_⟩
        rw [if_pos trivial, done]
        rfl
      · rw [HistoryReply.records, same]
        exact covers

/-- The cursor of a page is taken back. -/
theorem accepted_next (texts : UuidTexts format) {store : Store} (fits : KeysFit store)
    {actor : Uuid} {wants : OperationRecord -> Bool} {cursor next : Option Text}
    {page : List OperationRecord} {count : Nat}
    (covers : Keyset.Covers (markOf format) wants (leftAt format store actor query cursor) page next
      count) (text : Text) (goes : next = some text) : Accepted (some text) := by
  rcases covers.ends with ⟨none, _⟩ | ⟨record, _, present, named⟩
  · rw [none] at goes
    cases goes
  · rw [named, Option.some.injEq] at goes
    rw [← goes]
    exact accepted_some (refusesCursor_mark texts fits present)

/-- A delivered page shows the wanted records between its cursors, and its own
cursor is taken back. -/
theorem HistoryServed.between (texts : UuidTexts format) (distinct : Function.Injective ids)
    (served : HistoryServed env format ids session query moment) {cursor : Option Text}
    {reply : HistoryReply}
    (accepted : Accepted cursor)
    (fetched : moment.fetch format session query cursor = .ok reply) :
    Keyset.Between (markOf format) (HistoryWanted format session query moment) cursor
        reply.nextCursor reply.records ∧
      forall text, reply.nextCursor = some text -> Accepted (some text) := by
  rcases served.session with ⟨actor, view, verified, viewed⟩
  rcases served.page texts distinct verified viewed accepted with ⟨other, count, again, covers⟩
  rw [fetched] at again
  cases again
  have between := covers.between text_asymm text_trans (stands_leftAt texts served.fits cursor)
  refine ⟨⟨between.sorted, ?_, between.advances⟩, accepted_next texts served.fits covers⟩
  intro record
  rw [between.mem record]
  refine and_congr_left (fun _ => ?_)
  constructor
  · rintro ⟨selected, wanted⟩
    exact ⟨actor, view, verified, viewed, selected, wanted⟩
  · rintro ⟨same, sameView, verifiedSame, viewedSame, selected, wanted⟩
    rw [verified] at verifiedSame
    cases verifiedSame
    rw [viewed] at viewedSame
    cases viewedSame
    exact ⟨selected, wanted⟩

/-- What a reader gets who asks for every page at a moment of its own. -/
theorem read_of_browsed (texts : UuidTexts format) (distinct : Function.Injective ids)
    {moments : List HistoryMoment} {pages : List HistoryReply}
    (served : forall moment, moment ∈ moments -> HistoryServed env format ids session query moment)
    (browsed : Keyset.Browsed (HistoryMoment.fetch format session query) HistoryReply.nextCursor none
      moments pages) :
    Keyset.Read (markOf format) (HistoryWanted format session query) none moments
      (pages.flatMap HistoryReply.records) := by
  apply browsed.read text_trans Accepted (HistoryServed env format ids session query) text_below
  · intro moment cursor reply servedThen accepted fetched
    exact servedThen.between texts distinct accepted fetched
  · exact accepted_none
  · exact served

/-- An unchanged journal is read to its end. -/
theorem HistoryServed.followed (texts : UuidTexts format) (distinct : Function.Injective ids)
    (served : HistoryServed env format ids session query moment) :
    ∃ pages, Pages.Followed (moment.fetch format session query) HistoryReply.nextCursor none
      pages := by
  rcases served.session with ⟨actor, view, verified, viewed⟩
  apply Keyset.exists_followed text_asymm text_trans
    Accepted (leftAt format moment.store actor.id query) (stands_leftAt texts served.fits)
  · intro cursor accepted
    rcases served.page texts distinct verified viewed accepted with ⟨reply, count, fetched, covers⟩
    exact ⟨reply, count, fetched, covers, accepted_next texts served.fits covers⟩
  · exact accepted_none

end Served

/-- Over an unchanged journal, following the cursors comes to an end and yields
the wanted records, each once and the newest key first.  Whatever the journals
are at which the pages are read, nothing comes twice, and what is stored and
wanted at all of them comes. -/
theorem history_complete (env : Environment) (format : JournalFormat) (texts : UuidTexts format)
    (ids : Nat -> Uuid) (distinct : Function.Injective ids) (session : HistorySession)
    (query : HistoryQuery) :
    (forall moment, HistoryServed env format ids session query moment ->
      ∃ pages, Pages.Followed (moment.fetch format session query) HistoryReply.nextCursor none pages ∧
        (pages.flatMap HistoryReply.records).Pairwise (fun first second =>
          second.key.text format < first.key.text format) ∧
        forall record, record ∈ pages.flatMap HistoryReply.records ↔
          HistoryWanted format session query moment record) ∧
    forall moments pages,
      (forall moment, moment ∈ moments -> HistoryServed env format ids session query moment) ->
      Keyset.Browsed (HistoryMoment.fetch format session query) HistoryReply.nextCursor none moments
        pages ->
      (pages.flatMap HistoryReply.records).Pairwise (fun first second =>
        second.key.text format < first.key.text format) ∧
      (forall record, record ∈ pages.flatMap HistoryReply.records ->
        ∃ moment, moment ∈ moments ∧ HistoryWanted format session query moment record) ∧
      forall record, (forall moment, moment ∈ moments ->
          HistoryWanted format session query moment record) ->
        record ∈ pages.flatMap HistoryReply.records := by
  constructor
  · intro moment served
    rcases served.followed texts distinct with ⟨pages, followed⟩
    have always : forall other, other ∈ pages.map (fun _ => moment) -> other = moment := by
      intro other member
      rcases List.mem_map.mp member with ⟨_, _, same⟩
      exact same.symm
    have read := read_of_browsed texts distinct (fun other member => always other member ▸ served)
      (Keyset.browsed_of_followed followed)
    refine ⟨pages, followed, read.sorted, ?_⟩
    intro record
    constructor
    · intro member
      rcases (read.sound record member).1 with ⟨other, listed, wanted⟩
      exact always other listed ▸ wanted
    · intro wanted
      apply read.complete record
      · intro other member
        exact always other member ▸ wanted
      · intro text given
        cases given
  · intro moments pages served browsed
    have read := read_of_browsed texts distinct served browsed
    refine ⟨read.sorted, fun record member => (read.sound record member).1, ?_⟩
    intro record always
    apply read.complete record always
    intro text given
    cases given

/-! ## One item in the trash -/

namespace OneTrash

/-- Hexadecimal digits, and the number they spell. -/
theorem toDigits_sixteen (value : Nat) :
    (forall symbol, symbol ∈ Nat.toDigits 16 value -> symbol ∈ "0123456789abcdef".toList) ∧
      (Nat.toDigits 16 value).foldl (fun value symbol => value * 16 + hexValue symbol) 0 = value := by
  have small : forall digit, digit < 16 -> Nat.digitChar digit ∈ "0123456789abcdef".toList ∧
      hexValue (Nat.digitChar digit) = digit := by decide
  induction value using Nat.strongRecOn with
  | ind value ih =>
      by_cases single : value < 16
      · rw [Nat.toDigits_of_lt_base single]
        refine ⟨?_, ?_⟩
        · intro symbol member
          rw [List.mem_singleton.mp member]
          exact (small value single).1
        · simp [(small value single).2]
      · rw [Nat.toDigits_of_base_le (by decide) (Nat.not_lt.mp single)]
        have less : value / 16 < value := by omega
        have last := small (value % 16) (by omega)
        refine ⟨?_, ?_⟩
        · intro symbol member
          rcases List.mem_append.mp member with front | back
          · exact (ih _ less).1 symbol front
          · rw [List.mem_singleton.mp back]
            exact last.1
        · rw [List.foldl_append, (ih _ less).2]
          simp only [List.foldl_cons, List.foldl_nil, last.2]
          omega

theorem length_hexDigits {id : Uuid} (fits : id < 2 ^ 128) : (hexDigits id).length = 32 := by
  have digits : (Nat.toDigits 16 id).length ≤ 32 := by
    rw [Nat.length_toDigits_le_iff (by decide) (by decide)]
    omega
  rw [hexDigits, List.length_append, List.length_replicate]
  omega

theorem mem_hexDigits {id : Uuid} {symbol : Char} (member : symbol ∈ hexDigits id) :
    symbol ∈ "0123456789abcdef".toList := by
  rcases List.mem_append.mp member with zero | digit
  · rw [(List.mem_replicate.mp zero).2]
    decide
  · exact (toDigits_sixteen id).1 symbol digit

/-- Leading zeros do not change the value. -/
theorem value_hexDigits (id : Uuid) :
    (hexDigits id).foldl (fun value symbol => value * 16 + hexValue symbol) 0 = id := by
  have zeros : forall count, (List.replicate count '0').foldl
      (fun value symbol => value * 16 + hexValue symbol) 0 = 0 := by
    intro count
    induction count with
    | zero => rfl
    | succ count ih => exact ih
  rw [hexDigits, List.foldl_append, zeros, (toDigits_sixteen id).2]

theorem hyphenated_eq (id : Uuid) : hyphenated id =
    (hexDigits id).take 8 ++ '-' :: (((hexDigits id).drop 8).take 4 ++
      '-' :: (((hexDigits id).drop 12).take 4 ++ '-' :: (((hexDigits id).drop 16).take 4 ++
        '-' :: (hexDigits id).drop 20))) := by
  have hyphen : "-".toList = ['-'] := by decide
  rw [hyphenated, hyphen]
  simp [List.intercalate]

/-- Without its hyphens the text is the digits. -/
theorem filter_hyphenated (id : Uuid) :
    (hyphenated id).filter (fun symbol => symbol != '-') = hexDigits id := by
  have plain : forall part, part ⊆ hexDigits id ->
      part.filter (fun symbol => symbol != '-') = part := by
    intro part inside
    apply List.filter_eq_self.mpr
    intro symbol member
    have digit := mem_hexDigits (inside member)
    rw [bne_iff_ne]
    rintro rfl
    revert digit
    decide
  have four : forall start, ((hexDigits id).drop start).take 4 ++ (hexDigits id).drop (start + 4) =
      (hexDigits id).drop start := by
    intro start
    rw [← List.drop_drop, List.take_append_drop]
  have inner : forall start count, ((hexDigits id).drop start).take count ⊆ hexDigits id :=
    fun start count => List.Subset.trans (List.take_subset _ _) (List.drop_subset _ _)
  have hyphen : forall rest : Text, ('-' :: rest).filter (fun symbol => symbol != '-') =
      rest.filter (fun symbol => symbol != '-') := fun rest => List.filter_cons_of_neg (by decide)
  rw [hyphenated_eq]
  simp only [List.filter_append, hyphen]
  rw [plain _ (List.take_subset _ _), plain _ (inner 8 4), plain _ (inner 12 4),
    plain _ (inner 16 4), plain _ (List.drop_subset 20 _), four 16, four 12, four 8,
    List.take_append_drop]

theorem uuidTexts : UuidTexts format where
  length := by
    intro id fits
    change (hyphenated id).length = 36
    rw [hyphenated_eq]
    simp only [List.length_append, List.length_cons, List.length_take, List.length_drop,
      length_hexDigits fits]
    decide
  symbols := by
    intro id _ symbol member
    have known : symbol = '-' ∨ symbol ∈ hexDigits id := by
      by_cases hyphen : symbol = '-'
      · exact Or.inl hyphen
      · right
        rw [← filter_hyphenated id, List.mem_filter]
        exact ⟨member, bne_iff_ne.mpr hyphen⟩
    rcases known with rfl | digit
    · decide
    · have all : forall digit, digit ∈ "0123456789abcdef".toList -> uuidSymbol digit = true :=
        Text.forall_mem (by decide)
      exact all symbol (mem_hexDigits digit)
  distinct := by
    intro first second _ _ same
    have digits : hexDigits first = hexDigits second := by
      rw [← filter_hyphenated first, ← filter_hyphenated second]
      exact congrArg _ same
    rw [← value_hexDigits first, ← value_hexDigits second, digits]

def binding : CallerBinding := ⟨2000, 1, 1, 1⟩

def grant : SessionGrant := ⟨5, 2, 1, binding, 5000⟩

/-- The account of the store is logged in. -/
def opened : Store :=
  { store with sessionGrants := ⟨[(5, ⟨2, 1, binding, 5000, false⟩)], by decide⟩ }

def view : AppConfig :=
  { AppConfig.standard with
    journal := config
    roots := [{ AllowedRoot.standard with rootId := ⟨"home".toList⟩, basePath := "/home/ben".toList }] }

/-- It asks for what it can undo. -/
def session : HistorySession := ⟨view, fun _ => .ok view, grant, binding, true⟩

def query : HistoryQuery := ⟨50, none, none, none, none, none, none, none, none⟩

def moment : HistoryMoment :=
  ⟨(Runs.run (JournalState.step environment format ids) (.initial opened) trashing).store, 0, 1200⟩

theorem moment_served : HistoryServed environment format ids session query moment where
  reached := ⟨opened, trashing, rfl⟩
  fits := by
    intro key record found
    have keys : moment.store.operations.table.rows.map Prod.fst = [⟨2, 1000, 101⟩] := by
      decide
    have listed : key ∈ moment.store.operations.table.rows.map Prod.fst :=
      List.mem_map.mpr ⟨(key, record), Table.find_eq_some_iff.mp found, rfl⟩
    rw [keys, List.mem_singleton] at listed
    rw [listed]
    exact ⟨by decide, by decide, by decide⟩
  enabled := rfl
  valid := by decide
  query := by decide
  session := ⟨actor, view, by decide, rfl⟩

end OneTrash

open OneTrash in
theorem history_complete_trashed :
    HistoryServed environment format ids session OneTrash.query moment ∧
      ∃ pages record,
        Pages.Followed (moment.fetch format session OneTrash.query) HistoryReply.nextCursor
          none pages ∧ record ∈ pages.flatMap HistoryReply.records ∧ record.id = ids 1 := by
  have complete :=
    history_complete environment format uuidTexts ids ids_injective session OneTrash.query
  rcases complete.1 moment moment_served with ⟨pages, followed, _, listed⟩
  have stored : ∃ record, moment.store.operations.find ⟨2, 1000, 101⟩ = some record := by
    rw [← Option.isSome_iff_exists]
    decide
  rcases stored with ⟨record, found⟩
  have key : record.key = ⟨2, 1000, 101⟩ := moment.store.operations.keyed _ _ found
  have all : moment.store.operations.table.rows.all (fun row => OneTrash.query.selects format row.2 &&
      historyWants view actor true row.2) = true := by
    decide
  have wanted := List.all_eq_true.mp all _ (Table.find_eq_some_iff.mp found)
  rw [Bool.and_eq_true] at wanted
  refine ⟨moment_served, pages, record, followed, (listed record).mpr ?_,
    congrArg OperationKey.id key⟩
  refine ⟨actor, view, by decide, rfl, ⟨?_, congrArg OperationKey.accountId key, wanted.1⟩,
    wanted.2⟩
  rw [key]
  exact found

end TealDrive
