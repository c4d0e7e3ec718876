import DocShape.Proofs.Document.Checking
import DocShape.Proofs.Schema.Placing
import DocShape.Record

/-!
# Walks into a record only append

A walk over a raw block reports into a record that it shares with others (`Record.checkBlock`). What it
appends is what it reports to an empty record (`Record.alone`), seen from where it starts
(`Record.checkBlock_eq`); so several walks append what each of them reports alone
(`Record.getElem?_checkSchemas`), and a block inside a schema is told of in one piece
(`Record.infix_of_nests`).
-/

namespace DocShape

/-! ## Findings in a row -/

/-- Findings up to the first error, which is the last of them. -/
def upToFirstError : List Finding → List Finding
  | [] => []
  | .error c :: _ => [.error c]
  | f :: rest => f :: upToFirstError rest

/-- Fail-fast takes the findings up to the first error for all there are. -/
theorem settle_failFast_eq (fs : List Finding) :
    settle .failFast fs = settle .collectAll (upToFirstError fs) := by
  induction fs with
  | nil => rfl
  | cons f fs ih =>
    cases f with
    | halt f => rfl
    | error c => rfl
    | warning w => rw [settle_warning, ih, upToFirstError.eq_3 _ _ (by simp), settle_warning]

/-- Findings after a walk that came to its end count as well. -/
theorem settle_append {fs : List Finding} (h : NoHalt fs) (gs : List Finding) :
    settle .collectAll (fs ++ gs) =
      ⟨(settle .collectAll fs).errors ++ (settle .collectAll gs).errors,
        (settle .collectAll fs).warnings ++ (settle .collectAll gs).warnings,
        (settle .collectAll gs).halted⟩ := by
  induction fs with
  | nil => rfl
  | cons f fs ih =>
    have hrest := h.tail
    rw [List.cons_append]
    cases f with
    | halt f => exact absurd List.mem_cons_self (h f)
    | warning w => rw [settle_warning, settle_warning, ih hrest]; rfl
    | error c => rw [settle_collectAll_error, settle_collectAll_error, ih hrest]; rfl

/-- Findings in one piece count in one piece if the walk comes to its end. -/
theorem settle_infix {fs gs : List Finding} (h : NoHalt gs) (hfs : fs <:+: gs) :
    (settle .collectAll fs).errors <:+: (settle .collectAll gs).errors ∧
      (settle .collectAll fs).warnings <:+: (settle .collectAll gs).warnings := by
  obtain ⟨before, after, rfl⟩ := hfs
  obtain ⟨hbefore, -⟩ := noHalt_append.1 h
  rw [settle_append hbefore, settle_append (noHalt_append.1 hbefore).1]
  exact ⟨⟨_, _, rfl⟩, ⟨_, _, rfl⟩⟩

namespace Record

variable {record : Record} {mode : Mode} {path : Path} {raw : Value}

/-! ## What a walk appends -/

/-- What a walk over a raw schema comes to with nothing reported before. -/
def alone (mode : Mode) (raw : Value) : Record × Option Failure := empty.checkSchema mode raw

/-- One record behind another. -/
def concat (record later : Record) : Record :=
  ⟨record.errors ++ later.errors, record.warnings ++ later.warnings⟩

/-- A record seen from further out. -/
def under (path : Path) (record : Record) : Record :=
  ⟨record.errors.map (.under path), record.warnings.map (.under path)⟩

/-- A walk appends what counts of its findings. -/
theorem checkBlock_eq_append (record : Record) (mode : Mode) (path : Path) (raw : Value) :
    record.checkBlock mode path raw =
      (record.append (settle mode (Grammar.block path raw)),
        (settle mode (Grammar.block path raw)).raised? mode) := by
  rw [checkBlock, (Check.block_lists path raw).on_eq mode record, Settlement.result]
  cases (settle mode (Grammar.block path raw)).raised? mode <;> rfl

theorem alone_eq (mode : Mode) (raw : Value) :
    alone mode raw =
      (⟨(settle mode (Grammar.block [] raw)).errors, (settle mode (Grammar.block [] raw)).warnings⟩,
        (settle mode (Grammar.block [] raw)).raised? mode) :=
  checkBlock_eq_append empty mode [] raw

/-- A walk appends what it finds alone, with the path of the block in front. -/
theorem checkBlock_eq (record : Record) (mode : Mode) (path : Path) (raw : Value) :
    record.checkBlock mode path raw =
      (record.concat ((alone mode raw).1.under path), (alone mode raw).2.map (.under path)) := by
  rw [checkBlock_eq_append, alone_eq, Grammar.block_eq_map_under, settle_map_under,
    Settlement.raised?_under]
  rfl

theorem concat_checkSchema (record : Record) (mode : Mode) (raw : Value) :
    record.checkSchema mode raw = (record.concat (alone mode raw).1, (alone mode raw).2) := by
  rw [checkSchema, checkBlock_eq_append, alone_eq]
  rfl

/-- What several walks append. -/
def aloneAll (mode : Mode) (raws : List Value) : Record :=
  ⟨raws.flatMap fun raw => (alone mode raw).1.errors,
    raws.flatMap fun raw => (alone mode raw).1.warnings⟩

/-- After each of several walks the record holds what every walk so far finds alone, whether or not
one of them was broken off. -/
theorem getElem?_checkSchemas (record : Record) (mode : Mode) (before : List Value) (raw : Value)
    (after : List Value) :
    (record.checkSchemas mode (before ++ raw :: after))[before.length]? =
      some (record.concat (aloneAll mode (before ++ [raw])), (alone mode raw).2) := by
  induction before generalizing record with
  | nil => simp [checkSchemas, concat_checkSchema, aloneAll]
  | cons first before ih =>
    rw [List.cons_append, checkSchemas, List.length_cons, List.getElem?_cons_succ, ih,
      concat_checkSchema]
    simp [concat, aloneAll]

/-! ## Why a walk is broken off -/

/-- In collect-all mode a walk is broken off over a value that it has to quote and cannot. -/
theorem exists_quotes_of_raised {f : Failure} (h : (alone .collectAll raw).2 = some f) :
    f = .unwritable .tooManyDigits ∧ ∃ w, raw.Quotes w ∧ ¬ w.ShortInts := by
  rw [alone_eq, Settlement.raised?_collectAll] at h
  obtain ⟨w, hquotes, hlong, hf⟩ := Grammar.halt_mem_block_iff.1 (halt_mem_of_halted h)
  exact ⟨hf, w, hquotes, hlong⟩

/-- In fail-fast mode a walk is broken off by its first error, or where collect-all is if there is no
error before. -/
theorem raised_failFast_iff {f : Failure} :
    (alone .failFast raw).2 = some f ↔
      (∃ c, (alone .failFast raw).1.errors = [c] ∧ f = .complaint c) ∨
      ((alone .failFast raw).1.errors = [] ∧ (alone .collectAll raw).2 = some f) := by
  simp only [alone_eq, Settlement.raised?_collectAll]
  have hcut := settle_cut (Grammar.block [] raw)
  generalize settle .failFast (Grammar.block [] raw) = s at hcut
  generalize settle .collectAll (Grammar.block [] raw) = t at hcut
  cases hcut with
  | uncut warnings halted => cases halted <;> simp [Settlement.raised?]
  | first c before errors warnings halted => simp [Settlement.raised?, eq_comm]

/-! ## Blocks inside blocks -/

/-- What is told of a block inside a schema stands in one piece among what is told of the schema. -/
theorem infix_of_nests {below : Path} {inner : Value} (h : raw.Nests below inner)
    (hraised : (alone .collectAll raw).2 = none) :
    ((alone .collectAll inner).1.under below).errors <:+: (alone .collectAll raw).1.errors ∧
      ((alone .collectAll inner).1.under below).warnings <:+:
        (alone .collectAll raw).1.warnings := by
  rw [alone_eq, Settlement.raised?_collectAll, halted_eq_none_iff] at hraised
  have hinfix : Grammar.block below inner <:+: Grammar.block [] raw := Grammar.infix_of_nests h []
  have hsettle := settle_infix hraised hinfix
  rw [Grammar.block_eq_map_under, settle_map_under] at hsettle
  rw [alone_eq, alone_eq]
  exact hsettle

/-- **A walk only appends, and depends on nothing but its block and mode.** Whatever a record holds and
wherever the block is, a walk appends what it finds on the block alone, with the path in front, and is
broken off for the same reason. What a walk does is to tell its findings one after another; in fail-fast
mode it appends those up to the first error, and is broken off by this error, or else over a value that it
has to quote and cannot, as in collect-all mode. So a record that is never cleared holds after each of
several walks what every walk so far finds alone; and if a walk comes to its end, what it finds on a block
inside stands in one piece among its findings, as it is found on that block alone. -/
theorem walks_only_append (record : Record) (path : Path) (raw : Value) :
    (∀ mode, record.checkBlock mode path raw =
      (record.concat ((alone mode raw).1.under path), (alone mode raw).2.map (.under path))) ∧
    (Check.block [] raw).Lists (Grammar.block [] raw) () ∧
    (alone .failFast raw).1 =
      ((Walk.tell (upToFirstError (Grammar.block [] raw))).on .collectAll empty).2 ∧
    (∀ f, (alone .failFast raw).2 = some f ↔
      (∃ c, (alone .failFast raw).1.errors = [c] ∧ f = .complaint c) ∨
      ((alone .failFast raw).1.errors = [] ∧ (alone .collectAll raw).2 = some f)) ∧
    (∀ f, (alone .collectAll raw).2 = some f →
      f = .unwritable .tooManyDigits ∧ ∃ w, raw.Quotes w ∧ ¬ w.ShortInts) ∧
    (∀ mode before after, (record.checkSchemas mode (before ++ raw :: after))[before.length]? =
      some (record.concat (aloneAll mode (before ++ [raw])), (alone mode raw).2)) ∧
    ∀ below inner, raw.Nests below inner → (alone .collectAll raw).2 = none →
      ((alone .collectAll inner).1.under below).errors <:+: (alone .collectAll raw).1.errors ∧
      ((alone .collectAll inner).1.under below).warnings <:+:
        (alone .collectAll raw).1.warnings := by
  refine ⟨fun mode => checkBlock_eq record mode path raw, Check.block_lists [] raw, ?_,
    fun f => raised_failFast_iff, fun f => exists_quotes_of_raised,
    fun mode before after => getElem?_checkSchemas record mode before raw after,
    fun below inner => infix_of_nests⟩
  rw [Walk.on_tell, alone_eq, settle_failFast_eq]
  rfl

/-- A block whose option is no truth value. -/
def answerRaw : Value := .dict [(.str "type", .str "flag"), (.str "option", .int 42)]

/-- The error on the block of an array's items is the error on that block alone. -/
theorem walks_only_append_answer :
    (alone .collectAll answerRaw).1.errors =
        [.violation [.property "option"] (.mustBe .bool)] ∧
      ((alone .collectAll answerRaw).1.under [.items]).errors <:+:
        (alone .collectAll (.dict [(.str "type", .str "array"), (.str "value", answerRaw)])).1.errors := by
  have hnests : (Value.dict [(.str "type", .str "array"), (.str "value", answerRaw)]).Nests
      [.items] answerRaw := .inside (k := .array) rfl (.items rfl) (.here _)
  obtain ⟨-, -, -, -, -, -, hinner⟩ := walks_only_append empty []
    (.dict [(.str "type", .str "array"), (.str "value", answerRaw)])
  exact ⟨by decide +kernel, (hinner _ _ hnests (by decide +kernel)).1⟩

/-- A walk that is broken off in fail-fast mode although it has found no error. -/
theorem walk_escapes_power :
    alone .failFast (powerRaw 4300) = (empty, some (.unwritable .tooManyDigits)) ∧
      (Failure.unwritable .tooManyDigits).className = "ValueError" := by
  rw [alone_eq, block_powerRaw (by decide)]
  exact ⟨rfl, rfl⟩

end Record

end DocShape
