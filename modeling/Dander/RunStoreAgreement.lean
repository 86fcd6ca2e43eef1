import Dander.RunStoreRelation

/-!
# The two run stores agree

What each call does to the bucket and to the database keeps the relation between them, and so
does every sequence of calls.
-/
namespace Dander.RunStoreAgreement

open ObjectStore Orchestration RunStore Execution
open GraphStore (Collation)
open PostgresqlRunStore (Database RunRow AttemptRow MutationRow rowOf storedRunFromRow)

section Writes

variable {settings : Settings} {draws : ℕ → String} {identity : String → ℕ → String}
  {done : List ℕ} {bucket : Bucket} {db : Database} {collation : Collation} {label : ℕ}
  {history : History ObjectName ObjectValue} {write : Write ObjectName ObjectValue}

theorem Wrote.later {etag : ℕ} {record : RunRecord} {author : ℕ}
    (h : Wrote history etag record author) : Wrote (write :: history) etag record author :=
  recorded_mono (List.suffix_cons write history) h

/-- A snapshot written in a longer history is the newest write, or was written before. -/
theorem wrote_cons {etag : ℕ} {record : RunRecord} {author : ℕ}
    (h : Wrote (write :: history) etag record author) :
    (etag = history.length ∧ write = ⟨.run record.runId, some (.run record), author⟩) ∨
      Wrote history etag record author := by
  unfold Wrote recorded at h
  split at h
  next heq => exact .inl ⟨heq, Option.some.inj h⟩
  next => exact .inr h

theorem sameRun_later {found : Option (Version ObjectValue)} {row : Option RunRow}
    (h : Option.Rel (SameRun settings draws history) found row) :
    Option.Rel (SameRun settings draws (write :: history)) found row := by
  cases h with
  | none => exact .none
  | some hsame =>
    obtain ⟨record, author, hvalue, hwrote, hrow, hvalid⟩ := hsame
    exact .some ⟨record, author, hvalue, hwrote.later, hrow, hvalid⟩

theorem idempotencyName_of_valid {record : RunRecord} (hvalid : ValidRecord settings record) :
    idempotencyName (RunRecord.scope record) = .ok (.idempotency (RunRecord.scope record)) := by
  simp [idempotencyName, RunRecord.scope, hvalid.environment, hvalid.project, hvalid.key]

/-- A fresh label stays the author of one snapshot. -/
theorem Agreed.once_later (h : Agreed settings draws identity done bucket db)
    (hfresh : label ∉ done) {added : ℕ}
    (hadded : ∀ etag record author, Wrote history etag record author →
      (etag = added ∧ author = label) ∨ Wrote bucket.runs etag record author)
    (etag etag' : ℕ) (first second : RunRecord) (author : ℕ)
    (hfirst : Wrote history etag first author) (hsecond : Wrote history etag' second author) :
    etag = etag' := by
  have hold : ∀ {etag record}, Wrote bucket.runs etag record author → author ≠ label := by
    intro etag record hwrote hsame
    have hdone : author ∈ done := h.drawn _ (mem_of_recorded hwrote)
    exact hfresh (hsame ▸ hdone)
  obtain ⟨hetag, hauthor⟩ | hfirst := hadded _ _ _ hfirst
  · obtain ⟨hetag', -⟩ | hsecond := hadded _ _ _ hsecond
    · exact hetag.trans hetag'.symm
    · exact absurd hauthor (hold hsecond)
  · obtain ⟨-, hauthor⟩ | hsecond := hadded _ _ _ hsecond
    · exact absurd hauthor (hold hfirst)
    · exact h.once _ _ _ _ _ hfirst hsecond

/-- A new claim: the entry, the snapshot and the row. -/
theorem Agreed.claimed (h : Agreed settings draws identity done bucket db) {record : RunRecord}
    (hvalid : ValidRecord settings record) (hfresh : label ∉ done)
    (hrun : db.run record.runId = none)
    (hscope : db.claimed (RunRecord.scope record) = none) :
    Agreed settings draws identity (label :: done)
      { bucket with runs := ⟨.run record.runId, some (.run record), label⟩ ::
          ⟨.idempotency (RunRecord.scope record), some (.idempotency (entryOf record)), label⟩ ::
            bucket.runs }
      { db with runs := db.runs ++ [rowOf record (draws label)] } := by
  have hwrote : Wrote (⟨.run record.runId, some (.run record), label⟩ ::
      ⟨.idempotency (RunRecord.scope record), some (.idempotency (entryOf record)), label⟩ ::
        bucket.runs) (bucket.runs.length + 1) record label := by
    simp [Wrote, recorded]
  have hadded : ∀ etag other author,
      Wrote (⟨.run record.runId, some (.run record), label⟩ ::
        ⟨.idempotency (RunRecord.scope record), some (.idempotency (entryOf record)), label⟩ ::
          bucket.runs) etag other author →
      (etag = bucket.runs.length + 1 ∧ author = label) ∨ Wrote bucket.runs etag other author := by
    intro etag other author hother
    obtain ⟨hetag, hwrite⟩ | hother := wrote_cons hother
    · simp only [Write.mk.injEq] at hwrite
      exact .inl ⟨hetag, hwrite.2.2.symm⟩
    · obtain ⟨-, hwrite⟩ | hother := wrote_cons hother
      · simp at hwrite
      · exact .inr hother
  refine { h.later label with
    nodup := ?_
    runs := ?_
    entries := ?_
    once := h.once_later hfresh hadded
    drawn := ?_ }
  · exact Tables.nodup_append_new h.nodup hrun
  · intro runId
    have hselect : Tables.select RunRow.runId (db.runs ++ [rowOf record (draws label)]) runId =
        if runId = record.runId then some (rowOf record (draws label)) else db.run runId :=
      Tables.select_append_new hrun
    unfold Database.run
    simp only
    rw [hselect]
    by_cases hsame : runId = record.runId
    · subst hsame
      rw [if_pos rfl]
      have hcurrent := current_cons_self (⟨.run record.runId, some (.run record), label⟩ :
        Write ObjectName ObjectValue) (⟨.idempotency (RunRecord.scope record),
          some (.idempotency (entryOf record)), label⟩ :: bucket.runs)
      rw [hcurrent]
      exact .some ⟨record, label, rfl, hwrote, rfl, hvalid⟩
    · rw [if_neg hsame, current_cons_of_ne (by simpa using Ne.symm hsame),
        current_cons_of_ne (by simp)]
      exact sameRun_later (sameRun_later (h.runs runId))
  · intro scope
    have hselect : Tables.select RunRow.scope (db.runs ++ [rowOf record (draws label)]) scope =
        if scope = RunRecord.scope record then some (rowOf record (draws label))
        else db.claimed scope :=
      Tables.select_append_new hscope
    unfold Database.claimed
    simp only
    rw [hselect, current_cons_of_ne (by simp)]
    by_cases hsame : scope = RunRecord.scope record
    · subst hsame
      rw [if_pos rfl]
      have hcurrent := current_cons_self (⟨.idempotency (RunRecord.scope record),
        some (.idempotency (entryOf record)), label⟩ : Write ObjectName ObjectValue) bucket.runs
      rw [hcurrent]
      exact .some ⟨entryOf record, rfl, hvalid.entryFits, by simp [IdempotencyEntry.isConsistent,
        entryOf], rfl, rfl, rfl⟩
    · rw [if_neg hsame, current_cons_of_ne (by simpa using Ne.symm hsame)]
      exact h.entries scope
  · intro write hwrite
    simp only [List.mem_cons] at hwrite
    obtain rfl | rfl | hwrite := hwrite
    · exact List.mem_cons_self
    · exact List.mem_cons_self
    · exact List.mem_cons_of_mem _ (h.drawn write hwrite)

/-- Both stores judge a repeated claim alike. -/
theorem validateReplay_cases {entry : IdempotencyEntry} {stored : RunRecord} (record : RunRecord)
    (hrunId : stored.runId = entry.runId)
    (hscope : RunRecord.scope stored = ⟨entry.environment, entry.project, entry.keySha256⟩)
    (hsubmission : stored.submissionSha256 = entry.submissionSha256) :
    (validateReplay entry record = .ok () ∧
      PostgresqlRunStore.validateClaimReplay stored record = .ok ()) ∨
    ∃ e e', validateReplay entry record = .error e ∧
      PostgresqlRunStore.validateClaimReplay stored record = .error e' ∧
      errorClass e' = errorClass e := by
  simp only [RunRecord.scope, Scope.mk.injEq] at hscope
  unfold validateReplay PostgresqlRunStore.validateClaimReplay
  rw [hrunId, hscope.1, hscope.2.1, hscope.2.2, hsubmission]
  by_cases haddress : entry.environment ≠ record.environment ∨ entry.project ≠ record.project ∨
      entry.keySha256 ≠ record.idempotencyKeySha256 ∨ entry.runId ≠ record.runId
  · refine .inr ⟨_, _, if_pos (by simpa [or_assoc] using haddress), if_pos haddress, rfl⟩
  · rw [if_neg (by simpa [or_assoc] using haddress), if_neg haddress]
    by_cases hsame : entry.submissionSha256 ≠ record.submissionSha256
    · exact .inr ⟨_, _, if_pos hsame, if_pos hsame, rfl⟩
    · exact .inl ⟨if_neg hsame, if_neg hsame⟩

theorem Agreed.claim (h : Agreed settings draws identity done bucket db)
    (hdraws : ∀ author ∈ label :: done, isSha256 (draws author) = true) (hfresh : label ∉ done)
    {record : RunRecord} (hvalid : ValidRecord settings record)
    (huntaken : ∀ version other, current bucket.runs (.run record.runId) = some version →
      version.value = .run other → RunRecord.scope other = RunRecord.scope record) :
    Answered settings collation draws identity done bucket db
      ⟨label, .call (.claim record), .claim record⟩ := by
  have hdraws' : ∀ author ∈ done, isSha256 (draws author) = true := fun author hauthor =>
    hdraws author (List.mem_cons_of_mem _ hauthor)
  have htoken : isSha256 (draws label) = true := hdraws label List.mem_cons_self
  have hname := idempotencyName_of_valid hvalid
  unfold Answered Bucket.perform PostgresqlRunStore.perform
  simp only [RunStore.perform]
  rw [serve_map]
  cases hinitial : validateInitialRecord record with
  | false =>
    have hserve : serve (RunStore.claim settings.readable label record) bucket.runs =
        (.error (.conflict "A run claim must contain a pristine queued snapshot."),
          bucket.runs) := by
      unfold RunStore.claim
      rw [hinitial]
      rfl
    have hclaim : PostgresqlRunStore.claim db (draws label) record =
        .error (.conflict "A run claim must contain a pristine queued snapshot.") := by
      unfold PostgresqlRunStore.claim
      rw [hinitial]
      rfl
    rw [hserve, hclaim]
    exact ⟨rfl, h.later label⟩
  | true =>
    obtain ⟨hcurrent, hrow⟩ | ⟨etag, entry, tag, stored, author, hcurrent, hreadable, hentry,
      hscope, hrun, hrunId, hstored, hsubmission, hwrote, hauthor, hrow, hstoredValid⟩ :=
      h.entry_cases (RunRecord.scope record)
    · obtain ⟨hrun, hnone⟩ | ⟨etag, other, author, hrun, hrunId, -, -, hsome, -⟩ :=
        h.run_cases record.runId
      · have hread : storedRunFromRow (rowOf record (draws label)) (some record.runId) none =
            .ok ⟨record, draws label⟩ :=
          storedRunFromRow_of_valid hvalid htoken (by simp) (by simp)
        have hclaim : PostgresqlRunStore.claim db (draws label) record =
            .ok (⟨⟨record, draws label⟩, true⟩,
              { db with runs := db.runs ++ [rowOf record (draws label)] }) := by
          have hnone' : db.run (rowOf record (draws label)).runId = none := hnone
          have hrow' : db.claimed (rowOf record (draws label)).scope = none := hrow
          unfold PostgresqlRunStore.claim
          simp [hinitial, PostgresqlRunStore.checkedRevision, htoken, hnone', hrow', hread, bind,
            Except.bind, pure, Except.pure]
        rw [serve_claim_new hinitial hname hcurrent hvalid.runId hrun, hclaim]
        refine ⟨⟨⟨rfl, label, ?_, rfl⟩, rfl⟩, h.claimed hvalid hfresh hnone hrow⟩
        simp [Wrote, recorded]
      · have hsame : RunRecord.scope other = RunRecord.scope record := huntaken _ _ hrun rfl
        have hmem := Tables.mem_of_select hsome
        exact absurd hsame (Tables.select_eq_none.mp hrow _ hmem)
    · have hopaque : isOpaqueId entry.runId = true := hrunId ▸ hstoredValid.runId
      have hread : storedRunFromRow (rowOf stored (draws author)) none none =
          .ok ⟨stored, draws author⟩ :=
        storedRunFromRow_of_valid hstoredValid (hdraws' author hauthor) (by simp) (by simp)
      have hclaim : PostgresqlRunStore.claim db (draws label) record =
          (PostgresqlRunStore.validateClaimReplay stored record).map fun _ =>
            (⟨⟨stored, draws author⟩, false⟩, db) := by
        have hrow' : db.claimed (rowOf record (draws label)).scope =
            some (rowOf stored (draws author)) := hrow
        unfold PostgresqlRunStore.claim
        simp [hinitial, PostgresqlRunStore.checkedRevision, htoken, hrow', hread, bind,
          Except.bind, pure, Except.pure]
        rfl
      rw [serve_claim_taken hinitial hname hcurrent hreadable hentry hopaque hrun
        hstoredValid.snapshotFits hrunId
        (validateSnapshotReplay_of_entry hrunId (hstored.trans hscope) hsubmission), hclaim]
      obtain ⟨hreplay, hreplay'⟩ | ⟨e, e', hreplay, hreplay', hclass⟩ :=
        validateReplay_cases record hrunId (hstored.trans hscope) hsubmission
      · rw [hreplay, hreplay']
        exact ⟨⟨⟨rfl, author, hwrote, rfl⟩, rfl⟩, h.later label⟩
      · rw [hreplay, hreplay']
        exact ⟨hclass, h.later label⟩

theorem savedRow_rowOf {genuine record : RunRecord} (h : genuine.identity = record.identity)
    (token revision : String) :
    PostgresqlRunStore.savedRow record token (rowOf genuine revision) = rowOf record token := by
  simp only [RunRecord.identity, RunIdentity.mk.injEq] at h
  simp [PostgresqlRunStore.savedRow, rowOf, h]

/-- A save at the current revision: the snapshot and the row. -/
theorem Agreed.saved (h : Agreed settings draws identity done bucket db) {genuine record : RunRecord}
    {author : ℕ} (hvalid : ValidRecord settings record) (hfresh : label ∉ done)
    (hidentity : genuine.identity = record.identity)
    (hrow : db.run record.runId = some (rowOf genuine (draws author))) :
    Agreed settings draws identity (label :: done)
      { bucket with runs := ⟨.run record.runId, some (.run record), label⟩ :: bucket.runs }
      { db with
        runs := Tables.updateWhere RunRow.runId db.runs record.runId
          (PostgresqlRunStore.hasRevision (draws author))
          (PostgresqlRunStore.savedRow record (draws label)) } := by
  have hsaved := savedRow_rowOf hidentity (draws label) (draws author)
  have hadded : ∀ etag other author,
      Wrote (⟨.run record.runId, some (.run record), label⟩ :: bucket.runs) etag other author →
      (etag = bucket.runs.length ∧ author = label) ∨ Wrote bucket.runs etag other author := by
    intro etag other author hother
    obtain ⟨hetag, hwrite⟩ | hother := wrote_cons hother
    · simp only [Write.mk.injEq] at hwrite
      exact .inl ⟨hetag, hwrite.2.2.symm⟩
    · exact .inr hother
  have hkept : ∀ row : RunRow,
      (PostgresqlRunStore.savedRow record (draws label) row).runId = row.runId := fun _ => rfl
  have hscopeKept : ∀ row : RunRow, (if row.runId = record.runId ∧
      PostgresqlRunStore.hasRevision (draws author) row then
        PostgresqlRunStore.savedRow record (draws label) row else row).scope = row.scope := by
    intro row
    split <;> rfl
  refine { h.later label with
    nodup := ?_
    runs := ?_
    entries := ?_
    once := h.once_later hfresh hadded
    drawn := ?_ }
  · simp only
    rw [Tables.map_key_updateWhere hkept]
    exact h.nodup
  · intro runId
    unfold Database.run
    simp only
    by_cases hsame : runId = record.runId
    · subst hsame
      have hselect : Tables.select RunRow.runId (Tables.updateWhere RunRow.runId db.runs
          record.runId (PostgresqlRunStore.hasRevision (draws author))
          (PostgresqlRunStore.savedRow record (draws label))) record.runId = _ :=
        Tables.select_updateWhere_self hkept hrow
      have hcurrent := current_cons_self (⟨.run record.runId, some (.run record), label⟩ :
        Write ObjectName ObjectValue) bucket.runs
      rw [hselect, hcurrent, if_pos (by simp [PostgresqlRunStore.hasRevision, rowOf]), hsaved]
      refine .some ⟨record, label, rfl, ?_, rfl, hvalid⟩
      simp [Wrote, recorded]
    · rw [Tables.select_updateWhere_of_ne hkept hsame,
        current_cons_of_ne (by simpa using Ne.symm hsame)]
      exact sameRun_later (h.runs runId)
  · intro scope
    unfold Database.claimed Tables.updateWhere
    simp only
    rw [Tables.select_map hscopeKept, current_cons_of_ne (by simp)]
    have hrel := h.entries scope
    unfold Database.claimed at hrel
    cases hselect : Tables.select RunRow.scope db.runs scope with
    | none =>
      rw [hselect] at hrel
      exact hrel
    | some row =>
      rw [hselect] at hrel
      cases hcurrent : current bucket.runs (.idempotency scope) with
      | none =>
        rw [hcurrent] at hrel
        cases hrel
      | some version =>
        rw [hcurrent] at hrel
        obtain ⟨⟨entry, hvalue, hreadable, hentry, hscope, hrunId, hsubmission⟩⟩ := hrel
        show Option.Rel _ _ (some (if _ then _ else _))
        split
        · exact .some ⟨entry, hvalue, hreadable, hentry, hscope, hrunId, hsubmission⟩
        · exact .some ⟨entry, hvalue, hreadable, hentry, hscope, hrunId, hsubmission⟩
  · intro write hwrite
    rw [List.mem_cons] at hwrite
    obtain rfl | hwrite := hwrite
    · exact List.mem_cons_self
    · exact List.mem_cons_of_mem _ (h.drawn write hwrite)

theorem save_of_identity {mirrored : PostgresqlRunStore.StoredRun} {record : RunRecord}
    {token : String} (hidentity : sameRunIdentity mirrored.record record = true)
    (hrevision : isSha256 mirrored.revision = true) (htoken : isSha256 token = true)
    (hadvances : token ≠ mirrored.revision) :
    PostgresqlRunStore.save db token mirrored record =
      match (db.run record.runId).filter (PostgresqlRunStore.hasRevision mirrored.revision) with
      | none => .error (.conflict "The PostgreSQL run-store precondition failed.")
      | some row =>
        (storedRunFromRow (PostgresqlRunStore.savedRow record token row) (some record.runId)
          none).map fun saved => (saved,
            { db with
              runs := Tables.updateWhere RunRow.runId db.runs record.runId
                (PostgresqlRunStore.hasRevision mirrored.revision)
                (PostgresqlRunStore.savedRow record token) }) := by
  unfold PostgresqlRunStore.save
  simp only [hidentity, PostgresqlRunStore.checkedRevision, hrevision, htoken, hadvances, bind,
    Except.bind, Bool.not_true, Bool.false_eq_true, if_false, if_true, pure, Except.pure]
  cases (db.run record.runId).filter (PostgresqlRunStore.hasRevision mirrored.revision) with
  | none => rfl
  | some row =>
    cases hread : storedRunFromRow (PostgresqlRunStore.savedRow record token row)
      (some record.runId) none <;> simp [hread, Except.map]

theorem Agreed.save (h : Agreed settings draws identity done bucket db)
    (hdraws : ∀ author ∈ label :: done, isSha256 (draws author) = true) (hfresh : label ∉ done)
    (hinj : ∀ first ∈ label :: done, ∀ second ∈ label :: done, draws first = draws second →
      first = second)
    {stored : StoredRun} {mirrored : PostgresqlRunStore.StoredRun} {record : RunRecord}
    (hvalid : ValidRecord settings record) (hinput : SameInput draws bucket.runs stored mirrored) :
    Answered settings collation draws identity done bucket db
      ⟨label, .call (.save stored record), .save mirrored record⟩ := by
  have htoken : isSha256 (draws label) = true := hdraws label List.mem_cons_self
  obtain ⟨hrecord, hinput⟩ := hinput
  unfold Answered Bucket.perform PostgresqlRunStore.perform
  simp only [RunStore.perform]
  rw [serve_map]
  cases hidentity : sameRunIdentity stored.record record with
  | false =>
    have hserve : serve (RunStore.save label stored record) bucket.runs =
        (.error (.conflict "A run snapshot cannot change its durable identity."),
          bucket.runs) := by
      unfold RunStore.save
      rw [hidentity]
      rfl
    have hsave : PostgresqlRunStore.save db (draws label) mirrored record =
        .error (.conflict "A run snapshot cannot change its durable identity.") := by
      unfold PostgresqlRunStore.save
      rw [hrecord, hidentity]
      rfl
    rw [hserve, hsave]
    exact ⟨rfl, h.later label⟩
  | true =>
    have hstored : stored.record.identity = record.identity := sameRunIdentity_iff.mp hidentity
    have hstoredId : stored.record.runId = record.runId := by
      simp only [RunRecord.identity, RunIdentity.mk.injEq] at hstored
      exact hstored.1
    have hrevision : isSha256 mirrored.revision = true ∧ draws label ≠ mirrored.revision := by
      obtain ⟨genuine, author, hwrote, hauthor, -⟩ | ⟨-, hsha, hunknown⟩ := hinput
      · have hdone : author ∈ done := h.drawn _ (mem_of_recorded hwrote)
        rw [hauthor]
        refine ⟨hdraws author (List.mem_cons_of_mem _ hdone), ?_⟩
        intro hsame
        have hlabel := hinj label List.mem_cons_self author (List.mem_cons_of_mem _ hdone) hsame
        exact hfresh (hlabel ▸ hdone)
      · exact ⟨hsha, Ne.symm (hunknown label)⟩
    rw [serve_save hidentity, save_of_identity (by rw [hrecord]; exact hidentity) hrevision.1 htoken
      hrevision.2]
    obtain ⟨hcurrent, hrow⟩ | ⟨etag, other, author', hcurrent, hotherId, hwrote', hdone', hrow, -⟩ :=
      h.run_cases record.runId
    · rw [if_neg (by simp [tag, hcurrent]), hrow]
      exact ⟨rfl, h.later label⟩
    · have htag : tag bucket.runs (.run record.runId) = some etag := by simp [tag, hcurrent]
      rw [htag, hrow]
      by_cases hetag : etag = stored.revision
      · obtain ⟨genuine, author, hwrote, hauthor, hgenuine⟩ | ⟨hnone, -⟩ := hinput
        · subst hetag
          have hsame := Option.some.inj (hwrote'.symm.trans hwrote)
          simp only [Write.mk.injEq, ObjectName.run.injEq, Option.some.injEq,
            ObjectValue.run.injEq] at hsame
          obtain ⟨-, rfl, rfl⟩ := hsame
          have hsameId : other.identity = record.identity :=
            (hgenuine (hotherId.trans hstoredId.symm)).trans hstored
          have hread : storedRunFromRow (rowOf record (draws label)) (some record.runId) none =
              .ok ⟨record, draws label⟩ :=
            storedRunFromRow_of_valid hvalid htoken (by simp) (by simp)
          have hfilter : (some (rowOf other (draws author'))).filter
              (PostgresqlRunStore.hasRevision mirrored.revision) =
                some (rowOf other (draws author')) := by
            simp [Option.filter, PostgresqlRunStore.hasRevision, rowOf, hauthor]
          rw [if_pos rfl, hfilter]
          simp only [savedRow_rowOf hsameId, hread]
          rw [hauthor]
          refine ⟨⟨rfl, label, ?_, rfl⟩, h.saved hvalid hfresh hsameId hrow⟩
          simp [Wrote, recorded]
        · unfold Wrote at hwrote'
          rw [hetag, hnone] at hwrote'
          cases hwrote'
      · have hfilter : (some (rowOf other (draws author'))).filter
            (PostgresqlRunStore.hasRevision mirrored.revision) = none := by
          have hne : draws author' ≠ mirrored.revision := by
            intro hsame
            obtain ⟨genuine, author, hwrote, hauthor, -⟩ | ⟨-, -, hunknown⟩ := hinput
            · have hdone : author ∈ done := h.drawn _ (mem_of_recorded hwrote)
              obtain rfl : author' = author := hinj author' (List.mem_cons_of_mem _ hdone') author
                (List.mem_cons_of_mem _ hdone) (hsame.trans hauthor)
              exact hetag (h.once _ _ _ _ _ hwrote' hwrote)
            · exact hunknown author' hsame.symm
          simp [Option.filter, PostgresqlRunStore.hasRevision, rowOf, hne]
        rw [if_neg (by simpa using hetag), hfilter]
        exact ⟨rfl, h.later label⟩

end Writes

section Entries

variable {N V : Type} [DecidableEq N] {fits : V → Bool} {entries : History N V}

theorem serve_readEntry {name : N} {etag : ℕ} {value : V}
    (hcurrent : current entries name = some ⟨etag, value⟩) (hfits : fits value = true) (tries : ℕ) :
    serve (readEntry fits name (tries + 1)) entries = (.ok (some value), entries) := by
  simp [readEntry, serve, exec, tag, hcurrent, hfits]

theorem serve_createEntry_new {label : ℕ} {name : N} {value : V}
    (hcurrent : current entries name = none) :
    serve (createEntry label name value) entries =
      (.ok true, ⟨name, some value, label⟩ :: entries) := by
  simp [createEntry, serve, exec, tag, hcurrent]

theorem serve_createEntry_taken {label etag : ℕ} {name : N} {value old : V}
    (hcurrent : current entries name = some ⟨etag, old⟩) :
    serve (createEntry label name value) entries = (.ok false, entries) := by
  simp [createEntry, serve, exec, tag, hcurrent]

end Entries

section Attempts

variable {settings : Settings} {draws : ℕ → String} {identity : String → ℕ → String}
  {done : List ℕ} {bucket : Bucket} {db : Database} {collation : Collation} {label : ℕ}

theorem attemptName_of_valid {attempt : AttemptRecord}
    (hvalid : ValidAttempt settings identity attempt) :
    attemptName attempt = .ok (attempt.runId, attempt.attemptId) := by
  unfold attemptName checkedId
  rw [hvalid.runId, hvalid.attemptId]
  rfl

theorem serve_appendAttempt_new {attempt : AttemptRecord}
    (hvalid : ValidAttempt settings identity attempt)
    (hcurrent : current bucket.attempts (attempt.runId, attempt.attemptId) = none) :
    serve (RunStore.appendAttempt settings.readableAttempt label attempt) bucket.attempts =
      (.ok (), ⟨(attempt.runId, attempt.attemptId), some attempt, label⟩ :: bucket.attempts) := by
  unfold RunStore.appendAttempt
  rw [attemptName_of_valid hvalid]
  simp only
  rw [serve_bind, serve_createEntry_new hcurrent]
  rfl

theorem serve_appendAttempt_taken {attempt existing : AttemptRecord} {etag : ℕ}
    (hvalid : ValidAttempt settings identity attempt)
    (hcurrent : current bucket.attempts (attempt.runId, attempt.attemptId) =
      some ⟨etag, existing⟩) (hfits : settings.readableAttempt existing = true) :
    serve (RunStore.appendAttempt settings.readableAttempt label attempt) bucket.attempts =
      (if existing = attempt then .ok () else .error (.conflict
        "The attempt identity already contains different immutable input."), bucket.attempts) := by
  unfold RunStore.appendAttempt
  rw [attemptName_of_valid hvalid]
  simp only
  rw [serve_bind, serve_createEntry_taken hcurrent]
  simp only [Bool.false_eq_true, if_false]
  rw [serve_bind, serve_readEntry hcurrent hfits]
  simp only
  split <;> rfl

theorem attemptFromRow_attemptRow {attempt : AttemptRecord}
    (hvalid : ValidAttempt settings identity attempt) :
    PostgresqlRunStore.attemptFromRow (PostgresqlRunStore.attemptRow attempt)
      (attempt.runId, attempt.attemptId) = .ok attempt := by
  have hnumber : ¬ attempt.attemptNumber < 1 := by
    have := hvalid.number
    omega
  simp [PostgresqlRunStore.attemptFromRow, PostgresqlRunStore.attemptRow, AttemptRow.key,
    PostgresqlRunStore.checkedId, hvalid.runId, hvalid.attemptId, hnumber, bind, Except.bind, pure,
    Except.pure]

/-- The identity of an attempt follows from its number, so the number of a free identity is
free. -/
theorem Agreed.number_free (h : Agreed settings draws identity done bucket db)
    {attempt : AttemptRecord} (hvalid : ValidAttempt settings identity attempt)
    (hfree : db.attempt (attempt.runId, attempt.attemptId) = none) :
    Tables.select AttemptRow.number db.attempts (attempt.runId, attempt.attemptNumber) = none := by
  rw [Tables.select_eq_none]
  intro row hrow hnumber
  obtain ⟨other, rfl, hother⟩ := h.attemptRows row hrow
  simp only [AttemptRow.number, PostgresqlRunStore.attemptRow, Prod.mk.injEq] at hnumber
  refine Tables.select_eq_none.mp hfree _ hrow ?_
  simp only [AttemptRow.key, PostgresqlRunStore.attemptRow, Prod.mk.injEq]
  refine ⟨hnumber.1, ?_⟩
  rw [hother.deterministic, hvalid.deterministic, hnumber.1, hnumber.2]

theorem Agreed.appended (h : Agreed settings draws identity done bucket db)
    {attempt : AttemptRecord} (hvalid : ValidAttempt settings identity attempt)
    (hfree : db.attempt (attempt.runId, attempt.attemptId) = none) :
    Agreed settings draws identity (label :: done)
      { bucket with attempts := ⟨(attempt.runId, attempt.attemptId), some attempt, label⟩ ::
          bucket.attempts }
      { db with attempts := db.attempts ++ [PostgresqlRunStore.attemptRow attempt] } := by
  refine { h.later label with attempts := ?_, attemptRows := ?_ }
  · intro key
    have hselect : Tables.select AttemptRow.key
        (db.attempts ++ [PostgresqlRunStore.attemptRow attempt]) key =
          if key = (attempt.runId, attempt.attemptId) then
            some (PostgresqlRunStore.attemptRow attempt) else db.attempt key :=
      Tables.select_append_new hfree
    unfold Database.attempt
    simp only
    rw [hselect]
    by_cases hsame : key = (attempt.runId, attempt.attemptId)
    · subst hsame
      have hcurrent := current_cons_self (⟨(attempt.runId, attempt.attemptId), some attempt, label⟩ :
        Write AttemptName AttemptRecord) bucket.attempts
      rw [if_pos rfl, hcurrent]
      exact .some ⟨rfl, hvalid⟩
    · rw [if_neg hsame, current_cons_of_ne (Ne.symm hsame)]
      exact h.attempts key
  · intro row hrow
    rw [List.mem_append, List.mem_singleton] at hrow
    obtain hrow | rfl := hrow
    · exact h.attemptRows row hrow
    · exact ⟨attempt, rfl, hvalid⟩

theorem Agreed.appendAttempt (h : Agreed settings draws identity done bucket db)
    {attempt : AttemptRecord} (hvalid : ValidAttempt settings identity attempt)
    (hbound : attempt.attemptNumber ≤ PostgresqlRunStore.maxInteger)
    (hrun : (current bucket.runs (.run attempt.runId)).isSome) :
    Answered settings collation draws identity done bucket db
      ⟨label, .appendAttempt attempt, .appendAttempt attempt⟩ := by
  have hrow : (db.run attempt.runId).isNone = false := by
    obtain ⟨hnone, -⟩ | ⟨etag, record, author, -, -, -, -, hrow, -⟩ := h.run_cases attempt.runId
    · rw [hnone] at hrun
      cases hrun
    · simp [hrow]
  have hbound' : ¬ PostgresqlRunStore.maxInteger < attempt.attemptNumber := by omega
  have hrel := h.attempts (attempt.runId, attempt.attemptId)
  unfold Answered Bucket.perform PostgresqlRunStore.perform
  cases hfree : db.attempt (attempt.runId, attempt.attemptId) with
  | none =>
    cases hcurrent : current bucket.attempts (attempt.runId, attempt.attemptId) with
    | some version =>
      rw [hfree, hcurrent] at hrel
      cases hrel
    | none =>
      have happend : PostgresqlRunStore.appendAttempt db attempt =
          .ok { db with attempts := db.attempts ++ [PostgresqlRunStore.attemptRow attempt] } := by
        have hkey : db.attempt (PostgresqlRunStore.attemptRow attempt).key = none := hfree
        have hnumber : Tables.select AttemptRow.number db.attempts
            (PostgresqlRunStore.attemptRow attempt).number = none := h.number_free hvalid hfree
        simp [PostgresqlRunStore.appendAttempt, hbound', hkey, hnumber, hrow, pure, Except.pure]
      simp only [serve_appendAttempt_new hvalid hcurrent, happend]
      exact ⟨trivial, h.appended hvalid hfree⟩
  | some row =>
    cases hcurrent : current bucket.attempts (attempt.runId, attempt.attemptId) with
    | none =>
      rw [hfree, hcurrent] at hrel
      cases hrel
    | some version =>
      rw [hfree, hcurrent] at hrel
      obtain ⟨⟨hrowOf, hexisting⟩⟩ := hrel
      obtain ⟨etag, existing⟩ := version
      simp only at hrowOf hexisting
      subst hrowOf
      have hkey : (PostgresqlRunStore.attemptRow existing).key =
          (attempt.runId, attempt.attemptId) := Tables.key_of_select hfree
      have hread : PostgresqlRunStore.attemptFromRow (PostgresqlRunStore.attemptRow existing)
          (attempt.runId, attempt.attemptId) = .ok existing := by
        rw [← hkey]
        exact attemptFromRow_attemptRow hexisting
      have happend : PostgresqlRunStore.appendAttempt db attempt =
          if existing ≠ attempt then .error (.conflict
            "The attempt identity already contains different immutable input.") else .ok db := by
        have hkey' : db.attempt (PostgresqlRunStore.attemptRow attempt).key =
            some (PostgresqlRunStore.attemptRow existing) := hfree
        unfold PostgresqlRunStore.appendAttempt
        simp only [hbound', if_false, hkey', Option.isNone_some, Bool.false_and, Bool.false_eq_true,
          hread, bind, Except.bind, pure, Except.pure]
        rfl
      simp only [serve_appendAttempt_taken hvalid hcurrent hexisting.fits, happend]
      by_cases hsame : existing = attempt
      · rw [if_pos hsame, if_neg (not_not_intro hsame)]
        exact ⟨trivial, h.later label⟩
      · rw [if_neg hsame, if_pos hsame]
        exact ⟨rfl, h.later label⟩

end Attempts

section Mutations

variable {settings : Settings} {draws : ℕ → String} {identity : String → ℕ → String}
  {done : List ℕ} {bucket : Bucket} {db : Database} {collation : Collation} {label : ℕ}
  {keySha256 operation runId result : String}

/-- The texts PostgreSQL takes for a mutation result, and those it refuses. -/
theorem canonicalMutationResult_cases (codec : ResultCodec) (result : String) :
    (∃ canonical, codec.loads result = .mapping canonical ∧ result ≠ "" ∧
      result.utf8ByteSize ≤ maxMutationBytes ∧ canonical.utf8ByteSize ≤ maxMutationBytes ∧
      PostgresqlRunStore.canonicalMutationResult codec result = .ok canonical ∧
      PostgresqlRunStore.canonicalMutationResult codec canonical = .ok canonical) ∨
    ((∀ canonical, codec.loads result = .mapping canonical →
        ¬ (result ≠ "" ∧ result.utf8ByteSize ≤ maxMutationBytes ∧
          canonical.utf8ByteSize ≤ maxMutationBytes)) ∧
      ∃ message, PostgresqlRunStore.canonicalMutationResult codec result =
        .error (.corruption message)) := by
  by_cases hraw : result = "" ∨ maxMutationBytes < result.utf8ByteSize
  · refine .inr ⟨?_, _, by
      unfold PostgresqlRunStore.canonicalMutationResult
      rw [if_pos hraw]
      rfl⟩
    rintro canonical - ⟨hnonempty, hsize, -⟩
    obtain hempty | hlarge := hraw
    · exact hnonempty hempty
    · omega
  · obtain ⟨hnonempty, hsize⟩ := not_or.mp hraw
    cases hloads : codec.loads result with
    | invalid =>
      refine .inr ⟨by simp, _, by
        unfold PostgresqlRunStore.canonicalMutationResult
        rw [if_neg hraw, hloads]
        rfl⟩
    | notMapping =>
      refine .inr ⟨by simp, _, by
        unfold PostgresqlRunStore.canonicalMutationResult
        rw [if_neg hraw, hloads]
        rfl⟩
    | mapping canonical =>
      have hagain := codec.canonical _ _ hloads
      by_cases hlarge : maxMutationBytes < canonical.utf8ByteSize
      · refine .inr ⟨?_, _, by
          unfold PostgresqlRunStore.canonicalMutationResult
          simp only [if_neg hraw, hloads, if_pos hlarge]
          rfl⟩
        intro other hother hfits
        obtain rfl := ResultValue.mapping.inj hother
        omega
      · have hraw' : ¬ (canonical = "" ∨ maxMutationBytes < canonical.utf8ByteSize) := by
          rintro (hempty | hlarge')
          · rw [hempty, codec.empty] at hagain
            cases hagain
          · exact hlarge hlarge'
        refine .inl ⟨canonical, rfl, hnonempty, by omega, by omega, ?_, ?_⟩
        · unfold PostgresqlRunStore.canonicalMutationResult
          simp only [if_neg hraw, hloads, if_neg hlarge]
          rfl
        · unfold PostgresqlRunStore.canonicalMutationResult
          simp only [if_neg hraw', hagain, if_neg hlarge]
          rfl

/-- Both stores accept a mutation claim, with one canonical result, or neither does. -/
theorem mutationEntry_mapping {canonical : String} (hkey : isSha256 keySha256 = true)
    (hoperation : isPortableId operation = true) (hrunId : isOpaqueId runId = true)
    (hloads : settings.codec.loads result = .mapping canonical) :
    mutationEntry settings.codec keySha256 operation runId result =
      if MutationEntry.fits ⟨keySha256, operation, runId, canonical⟩ then
        .ok ⟨keySha256, operation, runId, canonical⟩
      else .error (.corruption "The mutation result exceeds its durable bound.") := by
  simp only [mutationEntry, checkedId, hkey, hoperation, hrunId, hloads, if_true, bind,
    Except.bind, pure, Except.pure, throw, throwThe, MonadExceptOf.throw]

theorem mutation_checked (db : Database)
    (hbounds : SameBounds settings keySha256 operation runId result) :
    (∃ canonical, ValidMutation settings keySha256 operation runId canonical ∧
      mutationEntry settings.codec keySha256 operation runId result =
        .ok ⟨keySha256, operation, runId, canonical⟩ ∧
      PostgresqlRunStore.canonicalMutationResult settings.codec result = .ok canonical) ∨
    ∃ message message',
      mutationEntry settings.codec keySha256 operation runId result =
        .error (.corruption message) ∧
      PostgresqlRunStore.claimMutation db settings.codec keySha256 operation runId result =
        .error (.corruption message') := by
  cases hkey : isSha256 keySha256 with
  | false =>
    refine .inr ⟨_, _, by
      unfold mutationEntry checkedId
      rw [hkey]
      rfl, by
      unfold PostgresqlRunStore.claimMutation PostgresqlRunStore.checkedId
      rw [hkey]
      rfl⟩
  | true =>
    cases hoperation : isPortableId operation with
    | false =>
      refine .inr ⟨_, _, by
        unfold mutationEntry checkedId
        rw [hkey, hoperation]
        rfl, by
        unfold PostgresqlRunStore.claimMutation PostgresqlRunStore.checkedId
        rw [hkey, hoperation]
        rfl⟩
    | true =>
      cases hrunId : isOpaqueId runId with
      | false =>
        refine .inr ⟨_, _, by
          unfold mutationEntry checkedId
          rw [hkey, hoperation, hrunId]
          rfl, by
          unfold PostgresqlRunStore.claimMutation PostgresqlRunStore.checkedId
          rw [hkey, hoperation, hrunId]
          rfl⟩
      | true =>
        obtain ⟨canonical, hloads, hnonempty, hsize, hcanonical, hread, hagain⟩ |
          ⟨hunfit, message, hread⟩ := canonicalMutationResult_cases settings.codec result
        · have hfits := (hbounds canonical hloads).mpr ⟨hnonempty, hsize, hcanonical⟩
          refine .inl ⟨canonical, ⟨hkey, hoperation, hrunId, hfits, hagain⟩, ?_, hread⟩
          rw [mutationEntry_mapping hkey hoperation hrunId hloads, if_pos hfits]
        · have hclaim : PostgresqlRunStore.claimMutation db settings.codec keySha256 operation runId
              result = .error (.corruption message) := by
            unfold PostgresqlRunStore.claimMutation PostgresqlRunStore.checkedId
            rw [hkey, hoperation, hrunId, hread]
            rfl
          rw [hclaim]
          cases hloads : settings.codec.loads result with
          | mapping canonical =>
            have hfits : ¬ MutationEntry.fits ⟨keySha256, operation, runId, canonical⟩ = true :=
              fun hfits => hunfit canonical hloads ((hbounds canonical hloads).mp hfits)
            rw [mutationEntry_mapping hkey hoperation hrunId hloads, if_neg hfits]
            exact .inr ⟨_, _, rfl, rfl⟩
          | invalid =>
            unfold mutationEntry checkedId
            rw [hkey, hoperation, hrunId, hloads]
            exact .inr ⟨_, _, rfl, rfl⟩
          | notMapping =>
            unfold mutationEntry checkedId
            rw [hkey, hoperation, hrunId, hloads]
            exact .inr ⟨_, _, rfl, rfl⟩

theorem serve_claimMutation_new {entry : MutationEntry}
    (hentry : mutationEntry settings.codec keySha256 operation runId result = .ok entry)
    (hcurrent : current bucket.mutations keySha256 = none) :
    serve (RunStore.claimMutation settings.codec label keySha256 operation runId result)
        bucket.mutations =
      (.ok entry.result, ⟨keySha256, some entry, label⟩ :: bucket.mutations) := by
  unfold RunStore.claimMutation
  rw [hentry]
  simp only
  rw [serve_bind, serve_createEntry_new hcurrent]
  rfl

theorem serve_claimMutation_taken {entry existing : MutationEntry} {etag : ℕ}
    (hentry : mutationEntry settings.codec keySha256 operation runId result = .ok entry)
    (hcurrent : current bucket.mutations keySha256 = some ⟨etag, existing⟩)
    (hfits : existing.fits = true) :
    serve (RunStore.claimMutation settings.codec label keySha256 operation runId result)
        bucket.mutations =
      (if existing.keySha256 ≠ keySha256 ∨ existing.operation ≠ operation ∨
          existing.runId ≠ runId then
        .error (.idempotencyConflict
          "The mutation idempotency key belongs to a different operation.")
      else .ok existing.result, bucket.mutations) := by
  unfold RunStore.claimMutation
  rw [hentry]
  simp only
  rw [serve_bind, serve_createEntry_taken hcurrent]
  simp only [Bool.false_eq_true, if_false]
  rw [serve_bind, serve_readEntry hcurrent hfits]
  simp only
  split <;> rfl

/-- The claim of a key in the table, once its row is known. -/
theorem claimMutation_of_valid {canonical : String} {row : MutationRow}
    (hvalid : ValidMutation settings keySha256 operation runId canonical)
    (hread : PostgresqlRunStore.canonicalMutationResult settings.codec result = .ok canonical)
    (hrow : Tables.select MutationRow.keySha256 (Tables.insertNew MutationRow.keySha256 db.mutations
      ⟨keySha256, operation, runId, canonical⟩) keySha256 = some row)
    (hrowValid : ValidMutation settings row.keySha256 row.operation row.runId row.resultBytes) :
    PostgresqlRunStore.claimMutation db settings.codec keySha256 operation runId result =
      if row.keySha256 ≠ keySha256 ∨ row.operation ≠ operation ∨ row.runId ≠ runId then
        .error (.idempotencyConflict
          "The mutation idempotency key belongs to a different operation.")
      else .ok (row.resultBytes, { db with
        mutations := Tables.insertNew MutationRow.keySha256 db.mutations
          ⟨keySha256, operation, runId, canonical⟩ }) := by
  unfold PostgresqlRunStore.claimMutation PostgresqlRunStore.checkedId
  rw [hvalid.key, hvalid.portable, hvalid.opaqueId, hread]
  simp only [if_true, bind, Except.bind, hrow, hrowValid.key, hrowValid.portable,
    hrowValid.opaqueId, hrowValid.canonical]
  by_cases hother : row.keySha256 ≠ keySha256 ∨ row.operation ≠ operation ∨ row.runId ≠ runId
  · rw [if_pos hother, if_pos hother]
    rfl
  · rw [if_neg hother, if_neg hother]
    simp [pure, Except.pure]

theorem Agreed.mutated (h : Agreed settings draws identity done bucket db) {canonical : String}
    (hvalid : ValidMutation settings keySha256 operation runId canonical)
    (hfree : db.mutation keySha256 = none) :
    Agreed settings draws identity (label :: done)
      { bucket with
        mutations := ⟨keySha256, some ⟨keySha256, operation, runId, canonical⟩, label⟩ ::
          bucket.mutations }
      { db with mutations := db.mutations ++ [⟨keySha256, operation, runId, canonical⟩] } := by
  refine { h.later label with mutations := ?_ }
  intro key
  have hselect : Tables.select MutationRow.keySha256
      (db.mutations ++ [⟨keySha256, operation, runId, canonical⟩]) key =
        if key = keySha256 then some ⟨keySha256, operation, runId, canonical⟩
        else db.mutation key := Tables.select_append_new hfree
  unfold Database.mutation
  simp only
  rw [hselect]
  by_cases hsame : key = keySha256
  · subst hsame
    have hcurrent := current_cons_self (⟨key, some ⟨key, operation, runId, canonical⟩, label⟩ :
      Write String MutationEntry) bucket.mutations
    rw [if_pos rfl, hcurrent]
    exact .some ⟨rfl, hvalid⟩
  · rw [if_neg hsame, current_cons_of_ne (Ne.symm hsame)]
    exact h.mutations key

theorem Agreed.claimMutation (h : Agreed settings draws identity done bucket db)
    (hbounds : SameBounds settings keySha256 operation runId result) :
    Answered settings collation draws identity done bucket db
      ⟨label, .claimMutation keySha256 operation runId result,
        .claimMutation keySha256 operation runId result⟩ := by
  have hrel := h.mutations keySha256
  unfold Answered Bucket.perform PostgresqlRunStore.perform
  obtain ⟨canonical, hvalid, hentry, hread⟩ | ⟨message, message', hentry, hclaim⟩ :=
    mutation_checked db hbounds
  · cases hfree : db.mutation keySha256 with
    | none =>
      cases hcurrent : current bucket.mutations keySha256 with
      | some version =>
        rw [hfree, hcurrent] at hrel
        cases hrel
      | none =>
        have hnone : Tables.select MutationRow.keySha256 db.mutations
            (MutationRow.keySha256 ⟨keySha256, operation, runId, canonical⟩) = none := hfree
        have hinsert := Tables.insertNew_of_none hnone
        have hselect : Tables.select MutationRow.keySha256 (Tables.insertNew MutationRow.keySha256
            db.mutations ⟨keySha256, operation, runId, canonical⟩) keySha256 =
              some ⟨keySha256, operation, runId, canonical⟩ := by
          rw [hinsert, Tables.select_append_new hnone, if_pos rfl]
        have hclaim := claimMutation_of_valid hvalid hread hselect hvalid
        rw [if_neg (by simp), hinsert] at hclaim
        simp only [serve_claimMutation_new hentry hcurrent, hclaim]
        exact ⟨rfl, h.mutated hvalid hfree⟩
    | some row =>
      cases hcurrent : current bucket.mutations keySha256 with
      | none =>
        rw [hfree, hcurrent] at hrel
        cases hrel
      | some version =>
        rw [hfree, hcurrent] at hrel
        obtain ⟨⟨hrowOf, hexisting⟩⟩ := hrel
        obtain ⟨etag, existing⟩ := version
        simp only at hrowOf hexisting
        subst hrowOf
        have hsome : Tables.select MutationRow.keySha256 db.mutations
            (MutationRow.keySha256 ⟨keySha256, operation, runId, canonical⟩) = some _ := hfree
        have hinsert := Tables.insertNew_of_some hsome
        have hselect : Tables.select MutationRow.keySha256 (Tables.insertNew MutationRow.keySha256
            db.mutations ⟨keySha256, operation, runId, canonical⟩) keySha256 =
              some ⟨existing.keySha256, existing.operation, existing.runId, existing.result⟩ := by
          rw [hinsert]
          exact hfree
        have hclaim := claimMutation_of_valid hvalid hread hselect hexisting
        simp only [hinsert] at hclaim
        simp only [serve_claimMutation_taken hentry hcurrent hexisting.fits, hclaim]
        by_cases hother : existing.keySha256 ≠ keySha256 ∨ existing.operation ≠ operation ∨
            existing.runId ≠ runId
        · rw [if_pos hother, if_pos hother]
          exact ⟨rfl, h.later label⟩
        · rw [if_neg hother, if_neg hother]
          exact ⟨rfl, h.later label⟩
  · have hserve : serve (RunStore.claimMutation settings.codec label keySha256 operation runId
        result) bucket.mutations = (.error (.corruption message), bucket.mutations) := by
      unfold RunStore.claimMutation
      rw [hentry]
      rfl
    simp only [hserve, hclaim]
    exact ⟨rfl, h.later label⟩

end Mutations

section Pages

variable {settings : Settings} {draws : ℕ → String} {identity : String → ℕ → String}
  {done : List ℕ} {bucket : Bucket} {db : Database} {collation : Collation} {label : ℕ}

instance : Std.Total nameLe := ⟨fun first second => le_total (first ++ ".json") (second ++ ".json")⟩

instance : IsTrans String nameLe :=
  ⟨fun first second third => le_trans (a := first ++ ".json") (b := second ++ ".json")
    (c := third ++ ".json")⟩

instance : Std.Antisymm nameLe :=
  ⟨fun _ _ hfirst hsecond => (String.append_left_inj ".json").mp (le_antisymm hfirst hsecond)⟩

theorem mem_runIds {history : History ObjectName ObjectValue} {runId : String} :
    runId ∈ runIds history ↔ (current history (.run runId)).isSome := by
  constructor
  · intro hmem
    exact (List.mem_filter.mp hmem).2
  · intro hsome
    obtain ⟨version, hcurrent⟩ := Option.isSome_iff_exists.mp hsome
    obtain ⟨author, hrecorded⟩ := recorded_of_current hcurrent
    refine List.mem_filter.mpr ⟨List.mem_dedup.mpr ?_, hsome⟩
    exact List.mem_filterMap.mpr ⟨_, mem_of_recorded hrecorded, rfl⟩

theorem nodup_runIds (history : History ObjectName ObjectValue) : (runIds history).Nodup :=
  (List.nodup_dedup _).filter _

theorem Agreed.mem_runs (h : Agreed settings draws identity done bucket db) {runId : String} :
    runId ∈ db.runs.map RunRow.runId ↔ runId ∈ runIds bucket.runs := by
  rw [mem_runIds, List.mem_map]
  constructor
  · rintro ⟨row, hrow, rfl⟩
    have hselect : db.run row.runId = some row := Tables.select_of_mem h.nodup hrow
    obtain ⟨-, hnone⟩ | ⟨etag, record, author, hcurrent, -⟩ := h.run_cases row.runId
    · rw [hselect] at hnone
      cases hnone
    · simp [hcurrent]
  · intro hsome
    obtain ⟨hnone, -⟩ | ⟨etag, record, author, -, -, -, -, hrow, -⟩ := h.run_cases runId
    · rw [hnone] at hsome
      cases hsome
    · exact ⟨_, Tables.mem_of_select hrow, Tables.key_of_select hrow⟩

/-- Texts that both stores list in one order. -/
def SameOrder (collation : Collation) (texts : List String) : Prop :=
  ∀ first ∈ texts, ∀ second ∈ texts, (nameLe first second ↔ collation.le first second)

/-- Both stores walk the same runs in the same order. -/
theorem Agreed.map_pageRows (h : Agreed settings draws identity done bucket db)
    {after : Option String} (horder : SameOrder collation (runIds bucket.runs ++ after.toList)) :
    (PostgresqlRunStore.pageRows collation db false after).map RunRow.runId =
      listedAfter bucket.runs after := by
  have hknown : ∀ row ∈ db.runs, row.runId ∈ runIds bucket.runs := fun row hrow =>
    h.mem_runs.mp (List.mem_map_of_mem hrow)
  have hwanted : ∀ row ∈ db.runs, GraphStore.isAfter collation.le after row.runId =
      after.all fun item => decide (¬ nameLe row.runId item) := by
    intro row hrow
    cases after with
    | none => rfl
    | some item =>
      have hiff := horder row.runId (List.mem_append_left _ (hknown row hrow)) item (by simp)
      simp [GraphStore.isAfter, hiff]
  have hsorted : (PostgresqlRunStore.pageRows collation db false after).map RunRow.runId =
      ((db.runs.filter (fun row => (!false || row.needsReconciliation) &&
        GraphStore.isAfter collation.le after row.runId)).map RunRow.runId).insertionSort nameLe := by
    refine List.map_insertionSort _ _ _ _ ?_
    intro first hfirst second hsecond
    have hfirst' := hknown first (List.mem_filter.mp hfirst).1
    have hsecond' := hknown second (List.mem_filter.mp hsecond).1
    exact (horder _ (List.mem_append_left _ hfirst') _ (List.mem_append_left _ hsecond')).symm
  rw [hsorted]
  refine List.Perm.eq_of_pairwise' (List.pairwise_insertionSort nameLe _)
    (List.pairwise_insertionSort nameLe _) ?_
  refine (List.perm_insertionSort nameLe _).trans (List.Perm.trans ?_
    (List.perm_insertionSort nameLe _).symm)
  have hrows : ((db.runs.filter (fun row => (!false || row.needsReconciliation) &&
      GraphStore.isAfter collation.le after row.runId)).map RunRow.runId).Nodup :=
    h.nodup.sublist (List.filter_sublist.map _)
  rw [List.perm_ext_iff_of_nodup hrows ((nodup_runIds _).filter _)]
  intro runId
  rw [List.mem_map, List.mem_filter]
  constructor
  · rintro ⟨row, hrow, rfl⟩
    obtain ⟨hrow, hpage⟩ := List.mem_filter.mp hrow
    simp only [Bool.not_false, Bool.true_or, Bool.true_and] at hpage
    rw [hwanted row hrow] at hpage
    exact ⟨hknown row hrow, hpage⟩
  · rintro ⟨hmem, hpage⟩
    obtain ⟨row, hrow, rfl⟩ := List.mem_map.mp (h.mem_runs.mpr hmem)
    refine ⟨row, List.mem_filter.mpr ⟨hrow, ?_⟩, rfl⟩
    simp only [Bool.not_false, Bool.true_or, Bool.true_and]
    rw [hwanted row hrow]
    exact hpage

/-- The runs of a page, read in both stores. -/
theorem Agreed.readRows (h : Agreed settings draws identity done bucket db)
    (hdraws : ∀ author ∈ done, isSha256 (draws author) = true) {rows : List RunRow}
    (hrows : ∀ row ∈ rows, row ∈ db.runs) :
    ∃ items mirrored,
      (rows.map RunRow.runId).mapM (readListed settings.readable bucket.runs) = .ok items ∧
      rows.mapM (fun row => storedRunFromRow row none none) = .ok mirrored ∧
      List.Forall₂ (SameStored draws bucket.runs) items mirrored ∧
      mirrored.map (fun stored => stored.record.runId) = rows.map RunRow.runId ∧
      ∀ row ∈ rows, isOpaqueId row.runId = true := by
  induction rows with
  | nil => exact ⟨[], [], rfl, rfl, .nil, rfl, by simp⟩
  | cons row rest ih =>
    obtain ⟨items, mirrored, hitems, hmirrored, hsame, hids, hopaque⟩ :=
      ih fun other hother => hrows other (List.mem_cons_of_mem _ hother)
    have hselect : db.run row.runId = some row :=
      Tables.select_of_mem h.nodup (hrows row List.mem_cons_self)
    obtain ⟨-, hnone⟩ | ⟨etag, record, author, hcurrent, hrunId, hwrote, hauthor, hrow, hvalid⟩ :=
      h.run_cases row.runId
    · rw [hselect] at hnone
      cases hnone
    · obtain rfl : row = rowOf record (draws author) := Option.some.inj (hselect.symm.trans hrow)
      have hread : readListed settings.readable bucket.runs record.runId = .ok ⟨record, etag⟩ := by
        unfold readListed
        rw [serve_get_some hvalid.runId hcurrent hvalid.snapshotFits rfl]
      have hread' : storedRunFromRow (rowOf record (draws author)) none none =
          .ok ⟨record, draws author⟩ :=
        storedRunFromRow_of_valid hvalid (hdraws author hauthor) (by simp) (by simp)
      refine ⟨⟨record, etag⟩ :: items, ⟨record, draws author⟩ :: mirrored, ?_, ?_,
        .cons ⟨rfl, author, hwrote, rfl⟩ hsame, ?_, ?_⟩
      · rw [List.map_cons, List.mapM_cons]
        show (readListed settings.readable bucket.runs record.runId >>= _) = _
        rw [hread, hitems]
        rfl
      · rw [List.mapM_cons, hread', hmirrored]
        rfl
      · rw [List.map_cons, hids]
        rfl
      · intro other hother
        obtain rfl | hother := List.mem_cons.mp hother
        · exact hvalid.runId
        · exact hopaque other hother

/-- The rows of a query and the listed names make the same page. -/
theorem Agreed.page (h : Agreed settings draws identity done bucket db)
    (hdraws : ∀ author ∈ done, isSha256 (draws author) = true) {cursor mirrored after : Option String}
    {limit : ℤ} {size : ℕ} (hsize : ∀ message, checkedPageSize limit message = .ok size)
    (hcursor : decodeCursor settings.base64 settings.runPrefix cursor = .ok after)
    (hmirrored : PostgresqlRunStore.decodeCursor settings.base64 mirrored = .ok after)
    (horder : SameOrder collation (runIds bucket.runs ++ after.toList)) :
    ∃ page page', RunStore.list settings.base64 settings.runPrefix settings.readable bucket.runs
        cursor limit = .ok page ∧
      PostgresqlRunStore.list settings.base64 collation db false mirrored limit = .ok page' ∧
      List.Forall₂ (SameStored draws bucket.runs) page.items page'.items ∧
      HandedOut settings page.nextCursor page'.nextCursor := by
  have hwalk := h.map_pageRows horder
  have hlength := congrArg List.length hwalk
  rw [List.length_map] at hlength
  have htake : ((PostgresqlRunStore.pageRows collation db false after).take (size + 1)).take size =
      (PostgresqlRunStore.pageRows collation db false after).take size := by
    rw [List.take_take]
    congr 1
    omega
  have hrows : ∀ row ∈ (PostgresqlRunStore.pageRows collation db false after).take size,
      row ∈ db.runs := by
    intro row hrow
    have hmem := (List.mem_insertionSort _).mp (List.mem_of_mem_take hrow)
    exact (List.mem_filter.mp hmem).1
  obtain ⟨items, stored, hitems, hstored, hsame, hids, hopaque⟩ := h.readRows hdraws hrows
  have hmore : (size < ((listedAfter bucket.runs after).take (size + 1)).length ∨
      ((listedAfter bucket.runs after).take (size + 1)).length <
        (listedAfter bucket.runs after).length) ↔
      size < ((PostgresqlRunStore.pageRows collation db false after).take (size + 1)).length := by
    rw [List.length_take, List.length_take]
    omega
  have hselected : ((listedAfter bucket.runs after).take (size + 1)).take size =
      ((PostgresqlRunStore.pageRows collation db false after).take size).map RunRow.runId := by
    rw [← hwalk, ← htake, List.map_take, List.map_take]
  unfold RunStore.list PostgresqlRunStore.list
  simp only [hsize, hcursor, hmirrored, hselected, htake, hitems, hstored, bind, Except.bind, pure,
    Except.pure]
  have hlast : (((PostgresqlRunStore.pageRows collation db false after).take size).map
      RunRow.runId).getLast? = stored.getLast?.map fun last => last.record.runId := by
    rw [← hids, List.getLast?_map]
  have hmore' : (decide (size < ((listedAfter bucket.runs after).take (size + 1)).length) ||
      decide (((listedAfter bucket.runs after).take (size + 1)).length <
        (listedAfter bucket.runs after).length)) = true ↔
      size < ((PostgresqlRunStore.pageRows collation db false after).take (size + 1)).length := by
    rw [← hmore]
    simp
  rw [hlast]
  cases hend : stored.getLast? with
  | none => exact ⟨_, _, rfl, rfl, hsame, .last⟩
  | some last =>
    have hmem : last.record.runId ∈
        ((PostgresqlRunStore.pageRows collation db false after).take size).map RunRow.runId := by
      rw [← hids]
      exact List.mem_map_of_mem (List.mem_of_getLast? hend)
    obtain ⟨row, hrow, hrowId⟩ := List.mem_map.mp hmem
    have hlastId : isOpaqueId last.record.runId = true := hrowId ▸ hopaque row hrow
    have hencoded : PostgresqlRunStore.encodeCursor settings.base64 last.record.runId =
        .ok (settings.base64.encode last.record.runId) := by
      unfold PostgresqlRunStore.encodeCursor PostgresqlRunStore.checkedId
      rw [hlastId]
      rfl
    by_cases hlarge : size <
        ((PostgresqlRunStore.pageRows collation db false after).take (size + 1)).length
    · simp only [Option.map_some, Option.bind_some, if_pos (hmore'.mpr hlarge), if_pos hlarge,
        hencoded, Except.map]
      exact ⟨_, _, rfl, rfl, hsame, .next hlastId⟩
    · simp only [Option.map_some, Option.bind_some, if_neg (mt hmore'.mp hlarge), if_neg hlarge]
      exact ⟨_, _, rfl, rfl, hsame, .last⟩

theorem Agreed.list (h : Agreed settings draws identity done bucket db)
    (hdraws : ∀ author ∈ done, isSha256 (draws author) = true) {cursor mirrored : Option String}
    {limit : ℤ} (hcursors : SameCursor settings cursor mirrored)
    (horder : ∀ after, decodeCursor settings.base64 settings.runPrefix cursor = .ok after →
      SameOrder collation (runIds bucket.runs ++ after.toList)) :
    Answered settings collation draws identity done bucket db
      ⟨label, .list cursor limit, .list mirrored limit⟩ := by
  unfold Answered Bucket.perform PostgresqlRunStore.perform
  by_cases hlimit : 1 ≤ limit ∧ limit ≤ 100
  · have hsize : ∀ message, checkedPageSize limit message = .ok limit.toNat := by
      intro message
      exact if_pos hlimit
    obtain ⟨after, hcursor, hmirrored⟩ | ⟨e, e', hcursor, hmirrored, hclass⟩ := hcursors
    · obtain ⟨page, page', hlist, hlist', hsame, hnext⟩ :=
        h.page hdraws hsize hcursor hmirrored (horder after hcursor)
      simp only [hlist, hlist']
      exact ⟨⟨hsame, hnext⟩, h.later label⟩
    · have hlist : RunStore.list settings.base64 settings.runPrefix settings.readable bucket.runs
          cursor limit = .error e := by
        simp only [RunStore.list, hsize, hcursor, bind, Except.bind]
      have hlist' : PostgresqlRunStore.list settings.base64 collation db false mirrored limit =
          .error e' := by
        simp only [PostgresqlRunStore.list, hsize, hmirrored, bind, Except.bind]
      simp only [hlist, hlist']
      exact ⟨hclass, h.later label⟩
  · have hsize : ∀ message, checkedPageSize limit message = .error (.corruption message) := by
      intro message
      exact if_neg hlimit
    have hlist : RunStore.list settings.base64 settings.runPrefix settings.readable bucket.runs
        cursor limit = .error (.corruption "The S3 run-store page size is invalid.") := by
      simp only [RunStore.list, hsize, bind, Except.bind]
    have hlist' : PostgresqlRunStore.list settings.base64 collation db false mirrored limit =
        .error (.corruption "The PostgreSQL run-store page size is invalid.") := by
      simp only [PostgresqlRunStore.list, hsize, bind, Except.bind]
    simp only [hlist, hlist']
    exact ⟨rfl, h.later label⟩

end Pages

section Cursors

variable {settings : Settings} {runId : String}

theorem runIdOfName_runName (runPrefix runId : String) :
    runIdOfName runPrefix (runName runPrefix runId) = some runId := by
  have hchars : (runName runPrefix runId).toList =
      runPrefix.toList ++ (runId.toList ++ ['.', 'j', 's', 'o', 'n']) := by
    simp [runName]
  unfold runIdOfName
  simp only [hchars, List.length_append, List.take_left', List.drop_left', List.length_cons,
    List.length_nil]
  have hdrop : (runPrefix.toList ++ (runId.toList ++ ['.', 'j', 's', 'o', 'n'])).drop
      (runPrefix.toList.length + (runId.toList.length + (0 + 1 + 1 + 1 + 1 + 1)) - 5) =
        ['.', 'j', 's', 'o', 'n'] := by
    rw [← List.append_assoc]
    refine List.drop_left' ?_
    rw [List.length_append]
    omega
  rw [if_pos ⟨trivial, by omega, hdrop⟩, List.take_left' (by omega), String.ofList_toList]

end Cursors

section Pending

variable {base64 : Base64} {codec : ResultCodec} {collation : Collation}

/-- The column the index of pending runs is on says of each row what its record says. -/
def Flagged (db : Database) : Prop :=
  ∀ row ∈ db.runs, row.needsReconciliation = runNeedsReconciliation row.recordBytes

theorem Flagged.claim {db after : Database} {token : String} {record : RunRecord}
    {claim : PostgresqlRunStore.RunClaim} (h : Flagged db)
    (hclaim : PostgresqlRunStore.claim db token record = .ok (claim, after)) : Flagged after := by
  unfold PostgresqlRunStore.claim at hclaim
  obtain ⟨-, hclaim⟩ := guard_eq_ok hclaim
  obtain ⟨⟨⟩, -, hclaim⟩ := bind_eq_ok hclaim
  simp only at hclaim
  split at hclaim
  · obtain ⟨stored, -, hclaim⟩ := bind_eq_ok hclaim
    obtain ⟨-, rfl⟩ := Prod.mk.inj (Except.ok.inj hclaim)
    intro row hrow
    obtain hrow | hrow := List.mem_append.mp hrow
    · exact h row hrow
    · obtain rfl := List.mem_singleton.mp hrow
      rfl
  · split at hclaim
    · cases hclaim
    · obtain ⟨stored, -, hclaim⟩ := bind_eq_ok hclaim
      obtain ⟨⟨⟩, -, hclaim⟩ := bind_eq_ok hclaim
      obtain ⟨-, rfl⟩ := Prod.mk.inj (Except.ok.inj hclaim)
      exact h

theorem Flagged.save {db after : Database} {token : String}
    {stored saved : PostgresqlRunStore.StoredRun} {record : RunRecord} (h : Flagged db)
    (hsave : PostgresqlRunStore.save db token stored record = .ok (saved, after)) :
    Flagged after := by
  unfold PostgresqlRunStore.save at hsave
  obtain ⟨-, hsave⟩ := guard_eq_ok hsave
  obtain ⟨⟨⟩, -, hsave⟩ := bind_eq_ok hsave
  obtain ⟨⟨⟩, -, hsave⟩ := bind_eq_ok hsave
  obtain ⟨-, hsave⟩ := guard_eq_ok hsave
  split at hsave
  · cases hsave
  · obtain ⟨saved', -, hsave⟩ := bind_eq_ok hsave
    obtain ⟨-, rfl⟩ := Prod.mk.inj (Except.ok.inj hsave)
    intro row hrow
    obtain ⟨old, hold, rfl⟩ := List.mem_map.mp hrow
    split
    · rfl
    · exact h old hold

theorem runs_claimMutation {db after : Database} {keySha256 operation runId result stored : String}
    (hclaim : PostgresqlRunStore.claimMutation db codec keySha256 operation runId result =
      .ok (stored, after)) : after.runs = db.runs := by
  unfold PostgresqlRunStore.claimMutation at hclaim
  obtain ⟨⟨⟩, -, hclaim⟩ := bind_eq_ok hclaim
  obtain ⟨⟨⟩, -, hclaim⟩ := bind_eq_ok hclaim
  obtain ⟨⟨⟩, -, hclaim⟩ := bind_eq_ok hclaim
  obtain ⟨canonical, -, hclaim⟩ := bind_eq_ok hclaim
  simp only at hclaim
  split at hclaim
  · cases hclaim
  · obtain ⟨⟨⟩, -, hclaim⟩ := bind_eq_ok hclaim
    obtain ⟨⟨⟩, -, hclaim⟩ := bind_eq_ok hclaim
    obtain ⟨⟨⟩, -, hclaim⟩ := bind_eq_ok hclaim
    obtain ⟨-, hclaim⟩ := guard_eq_ok hclaim
    obtain ⟨again, -, hclaim⟩ := bind_eq_ok hclaim
    obtain ⟨-, hclaim⟩ := guard_eq_ok hclaim
    obtain ⟨-, rfl⟩ := Prod.mk.inj (Except.ok.inj hclaim)
    rfl

theorem runs_appendAttempt {db after : Database} {attempt : AttemptRecord}
    (happend : PostgresqlRunStore.appendAttempt db attempt = .ok after) : after.runs = db.runs := by
  unfold PostgresqlRunStore.appendAttempt at happend
  obtain ⟨-, happend⟩ := guard_eq_ok happend
  simp only at happend
  split at happend
  · obtain ⟨-, happend⟩ := guard_eq_ok happend
    obtain rfl := Except.ok.inj happend
    rfl
  · split at happend
    · cases happend
    · obtain ⟨existing, -, happend⟩ := bind_eq_ok happend
      obtain ⟨-, happend⟩ := guard_eq_ok happend
      obtain rfl := Except.ok.inj happend
      rfl

theorem Flagged.perform {db : Database} (h : Flagged db) (token : String)
    (request : PostgresqlRunStore.StoreRequest) :
    Flagged (PostgresqlRunStore.perform base64 codec collation token db request).2 := by
  unfold PostgresqlRunStore.perform
  cases request with
  | claim record =>
    cases hclaim : PostgresqlRunStore.claim db token record with
    | error e => simpa [hclaim, Except.map, PostgresqlRunStore.committed] using h
    | ok result => simpa [hclaim, Except.map, PostgresqlRunStore.committed] using h.claim hclaim
  | get runId => cases hget : PostgresqlRunStore.get db runId <;>
      simpa [hget, Except.map, PostgresqlRunStore.committed] using h
  | findIdempotency scope => cases hfind : PostgresqlRunStore.findIdempotency db scope <;>
      simpa [hfind, Except.map, PostgresqlRunStore.committed] using h
  | save stored record =>
    cases hsave : PostgresqlRunStore.save db token stored record with
    | error e => simpa [hsave, Except.map, PostgresqlRunStore.committed] using h
    | ok result => simpa [hsave, Except.map, PostgresqlRunStore.committed] using h.save hsave
  | appendAttempt attempt =>
    cases happend : PostgresqlRunStore.appendAttempt db attempt with
    | error e => simpa [happend, Except.map, PostgresqlRunStore.committed] using h
    | ok after =>
      simp only [happend, Except.map, PostgresqlRunStore.committed, Flagged,
        runs_appendAttempt happend]
      exact h
  | claimMutation keySha256 operation runId result =>
    cases hclaim : PostgresqlRunStore.claimMutation db codec keySha256 operation runId result with
    | error e => simpa [hclaim, Except.map, PostgresqlRunStore.committed] using h
    | ok claimed =>
      simp only [hclaim, Except.map, PostgresqlRunStore.committed, Flagged,
        runs_claimMutation hclaim]
      exact h
  | list cursor limit =>
    cases hlist : PostgresqlRunStore.list base64 collation db false cursor limit <;>
      simpa [hlist, Except.map, PostgresqlRunStore.committed] using h
  | listPending cursor limit =>
    cases hlist : PostgresqlRunStore.list base64 collation db true cursor limit <;>
      simpa [hlist, Except.map, PostgresqlRunStore.committed] using h

theorem Flagged.mem_pageRows {db : Database} (h : Flagged db) {after : Option String} {row : RunRow} :
    row ∈ PostgresqlRunStore.pageRows collation db true after ↔
      row ∈ PostgresqlRunStore.pageRows collation db false after ∧
        runNeedsReconciliation row.recordBytes = true := by
  unfold PostgresqlRunStore.pageRows
  rw [List.mem_insertionSort, List.mem_insertionSort, List.mem_filter, List.mem_filter]
  simp only [Bool.not_true, Bool.false_or, Bool.not_false, Bool.true_or, Bool.true_and,
    Bool.and_eq_true]
  constructor
  · rintro ⟨hrow, hpending, hafter⟩
    exact ⟨⟨hrow, hafter⟩, (h row hrow).symm.trans hpending⟩
  · rintro ⟨⟨hrow, hafter⟩, hpending⟩
    exact ⟨hrow, (h row hrow).trans hpending, hafter⟩

end Pending

section Refinement

variable {settings : Settings} {draws : ℕ → String} {identity : String → ℕ → String}
  {collation : Collation}

/-- PostgreSQL takes the request of a step. -/
def mirroredPerform (settings : Settings) (collation : Collation) (draws : ℕ → String)
    (db : Database) (step : Step) :
    Except RunStoreError PostgresqlRunStore.StoreReply × Database :=
  PostgresqlRunStore.perform settings.base64 settings.codec collation (draws step.label) db
    step.mirrored

theorem Agreed.answered {done : List ℕ} {bucket : Bucket} {db : Database}
    (h : Agreed settings draws identity done bucket db) {step : Step}
    (hdraws : ∀ author ∈ step.label :: done, isSha256 (draws author) = true)
    (hfresh : step.label ∉ done)
    (hinj : ∀ first ∈ step.label :: done, ∀ second ∈ step.label :: done,
      draws first = draws second → first = second)
    (hadmitted : Admitted settings collation draws identity bucket step) :
    Answered settings collation draws identity done bucket db step := by
  have hdraws' : ∀ author ∈ done, isSha256 (draws author) = true := fun author hauthor =>
    hdraws author (List.mem_cons_of_mem _ hauthor)
  obtain ⟨label, request, mirrored⟩ := step
  obtain ⟨hmirrors, hadmitted⟩ := hadmitted
  cases hmirrors with
  | claim record => exact h.claim hdraws hfresh hadmitted.1 hadmitted.2
  | get runId => exact h.get hdraws' runId
  | findIdempotency scope => exact h.findIdempotency hdraws' scope
  | save record same => exact h.save hdraws hfresh hinj hadmitted same
  | appendAttempt attempt => exact h.appendAttempt hadmitted.1 hadmitted.2.1 hadmitted.2.2
  | claimMutation keySha256 operation runId result => exact h.claimMutation hadmitted
  | @list cursor mirrored limit same =>
    refine h.list hdraws' same ?_
    intro after hafter first hfirst second hsecond
    have hknown : ∀ text ∈ runIds bucket.runs ++ after.toList, text ∈ runIds bucket.runs ∨
        decodeCursor settings.base64 settings.runPrefix cursor = .ok (some text) := by
      intro text htext
      obtain hmem | hmem := List.mem_append.mp htext
      · exact .inl hmem
      · rw [Option.mem_toList] at hmem
        exact .inr (hafter.trans (congrArg Except.ok hmem))
    exact hadmitted first second (hknown first hfirst) (hknown second hsecond)

/-- Both stores answer alike to every sequence of requests that meets no point where they
differ; and the pages of pending runs hold the runs of the other pages that need
reconciliation, whatever was asked before. -/
theorem run_stores_agree {steps : List Step}
    (hdraws : ∀ step ∈ steps, isSha256 (draws step.label) = true)
    (hdistinct : (steps.map fun step => draws step.label).Nodup)
    (hadmitted : Meets (fun bucket step => (bucket.perform settings step.label step.request).2)
      (Admitted settings collation draws identity) Bucket.empty steps) :
    Lockstep (fun bucket step => bucket.perform settings step.label step.request)
        (mirroredPerform settings collation draws) (fun _ _ _ => False)
        (fun bucket _ => SameAnswer settings draws bucket.runs) Bucket.empty Database.empty steps ∧
      ∀ (requests : List (String × PostgresqlRunStore.StoreRequest)) (after : Option String)
        (row : RunRow),
        (row ∈ PostgresqlRunStore.pageRows collation (run (fun db request =>
            (PostgresqlRunStore.perform settings.base64 settings.codec collation request.1 db
              request.2).2) Database.empty requests) true after ↔
          row ∈ PostgresqlRunStore.pageRows collation (run (fun db request =>
            (PostgresqlRunStore.perform settings.base64 settings.codec collation request.1 db
              request.2).2) Database.empty requests) false after ∧
            runNeedsReconciliation row.recordBytes = true) := by
  constructor
  · refine lockstep_of_simulation (R := fun later bucket db => ∃ past : List Step,
      past.reverse ++ later = steps ∧
      Agreed settings draws identity (past.map Step.label) bucket db ∧
      Meets (fun bucket step => (bucket.perform settings step.label step.request).2)
        (Admitted settings collation draws identity) bucket later) ?_
      ⟨[], rfl, Agreed.empty settings draws identity, hadmitted⟩
    rintro bucket db step rest ⟨past, hsteps, hagreed, hstep, hrest⟩
    have hmem : ∀ other ∈ step :: past, other ∈ steps := by
      intro other hother
      rw [← hsteps]
      simp only [List.mem_append, List.mem_reverse, List.mem_cons]
      obtain rfl | hother := List.mem_cons.mp hother
      · exact .inr (.inl rfl)
      · exact .inl hother
    have hpast : ((step :: past).map fun other => draws other.label).Nodup := by
      rw [← hsteps, ← List.singleton_append (l := rest), ← List.append_assoc, List.map_append,
        List.nodup_append] at hdistinct
      have hreversed : past.reverse ++ [step] = (step :: past).reverse := by simp
      have hprefix := hdistinct.1
      rw [hreversed, List.map_reverse, List.nodup_reverse] at hprefix
      exact hprefix
    have hinj : ∀ first ∈ (step :: past).map Step.label, ∀ second ∈ (step :: past).map Step.label,
        draws first = draws second → first = second := by
      intro first hfirst second hsecond hsame
      obtain ⟨one, hone, rfl⟩ := List.mem_map.mp hfirst
      obtain ⟨two, htwo, rfl⟩ := List.mem_map.mp hsecond
      rw [List.inj_on_of_nodup_map hpast hone htwo hsame]
    have hfresh : step.label ∉ past.map Step.label := by
      intro hlabel
      obtain ⟨other, hother, hsame⟩ := List.mem_map.mp hlabel
      rw [List.map_cons, List.nodup_cons] at hpast
      exact hpast.1 (List.mem_map.mpr ⟨other, hother, congrArg draws hsame⟩)
    have hsha : ∀ author ∈ step.label :: past.map Step.label, isSha256 (draws author) = true := by
      intro author hauthor
      have hauthor' : author ∈ (step :: past).map Step.label := hauthor
      obtain ⟨other, hother, rfl⟩ := List.mem_map.mp hauthor'
      exact hdraws other (hmem other hother)
    obtain ⟨hsame, hafter⟩ := hagreed.answered hsha hfresh hinj hstep
    refine .inr ⟨hsame, step :: past, ?_, hafter, hrest⟩
    rw [← hsteps]
    simp
  · intro requests after row
    have hflagged : Flagged (run (fun db request =>
        (PostgresqlRunStore.perform settings.base64 settings.codec collation request.1 db
          request.2).2) Database.empty requests) := by
      have hmeets : ∀ (db : Database) (requests : List (String × PostgresqlRunStore.StoreRequest)),
          Meets (fun db request => (PostgresqlRunStore.perform settings.base64 settings.codec
            collation request.1 db request.2).2) (fun _ _ => True) db requests := by
        intro db requests
        induction requests generalizing db with
        | nil => trivial
        | cons request rest ih => exact ⟨trivial, ih _⟩
      exact run_invariant (fun db request hdb _ => hdb.perform request.1 request.2)
        (by simp [Flagged, Database.empty]) (hmeets _ requests)
    exact hflagged.mem_pageRows

end Refinement

section Examples

def exampleKey : String := "0ddba11c0ddba11c0ddba11c0ddba11c0ddba11c0ddba11c0ddba11c0ddba11c"

def otherKey : String := "feedface00000000feedface00000000feedface00000000feedface00000000"

def exampleRecord (runId project keySha256 : String) : RunRecord where
  runId := runId
  environment := "production"
  project := project
  graph := "orders"
  graphRevision := "r1"
  graphContentSha256 := exampleKey
  planId := "orders"
  planRevision := exampleKey
  trigger := ⟨.manual, "console", none, none, none⟩
  idempotencyKeySha256 := keySha256
  submissionSha256 := exampleKey
  requestedAt := 1
  requestedDeadlineSeconds := none
  runState := .queued
  outcome := .unknown
  resultsState := .pending
  cleanupState := .pending
  createdAt := 1
  updatedAt := 1
  terminalAt := none
  stage := none
  attemptCount := 0
  currentAttemptId := none
  backendHandle := none
  resultSummary := none
  placementDecision := none
  sizeClassDecision := none

def exampleAttempt (attemptNumber : ℕ) : AttemptRecord :=
  ⟨"a", "attempt-1", attemptNumber, "orders", exampleKey, "spark",
    ⟨.manual, "console", none, none, none⟩, 1⟩

/-- A JSON object as large as a result may be. -/
def largeResult : String := String.ofList (List.replicate 16384 'a')

/-- Texts that are not empty decode to the large object. -/
def exampleCodec : ResultCodec where
  loads text := if text = "" then .invalid else .mapping largeResult
  empty := rfl
  canonical text value h := by
    split at h
    · cases h
    · obtain rfl := ResultValue.mapping.inj h
      rw [if_neg]
      intro hempty
      have hlist := congrArg String.toList hempty
      unfold largeResult at hlist
      rw [String.toList_ofList] at hlist
      have hlength := congrArg List.length hlist
      rw [List.length_replicate] at hlength
      exact absurd hlength (by decide)

def exampleSettings : Settings where
  base64 := ⟨id, some, fun _ => rfl⟩
  codec := exampleCodec
  runPrefix := "dander-control/v1/runs/"
  readable _ := true
  readableAttempt _ := true

def exampleDraws (label : ℕ) : String :=
  String.ofList (List.replicate 64 (if label = 0 then 'a' else if label = 1 then 'b' else 'c'))

def claimStep (label : ℕ) (runId project keySha256 : String) : Step :=
  ⟨label, .call (.claim (exampleRecord runId project keySha256)),
    .claim (exampleRecord runId project keySha256)⟩

/-- A save over the snapshot that the first claim wrote. -/
def saveStep (label : ℕ) (project : String) : Step :=
  ⟨label, .call (.save ⟨exampleRecord "a" project exampleKey, 1⟩
      (exampleRecord "a" project exampleKey)),
    .save ⟨exampleRecord "a" project exampleKey, exampleDraws 0⟩
      (exampleRecord "a" project exampleKey)⟩

/-- The bucket after the first claim. -/
def exampleBucket : Bucket :=
  (Bucket.empty.perform exampleSettings 0 (claimStep 0 "a" "shop" exampleKey).request).2

theorem example_checks :
    (isOpaqueId "a" = true ∧ isPortableId "cancel" = true ∧ isPortableId "shop" = true ∧
      isPortableId (exampleRecord "a" "shop" exampleKey).environment = true ∧
      isSha256 exampleKey = true ∧
      isSha256 (exampleRecord "a" "shop" exampleKey).submissionSha256 = true) ∧
    (∀ label ∈ [0, 1], isSha256 (exampleDraws label) = true) ∧
    ([0, 1].map exampleDraws).Nodup ∧
    Wrote exampleBucket.runs 1 (exampleRecord "a" "shop" exampleKey) 0 := by
  unfold Wrote
  decide +kernel

theorem example_valid : ValidRecord exampleSettings (exampleRecord "a" "shop" exampleKey) := by
  obtain ⟨⟨hrun, -, hproject, henvironment, hkey, hsubmission⟩, -⟩ := example_checks
  exact ⟨hrun, henvironment, hproject, hkey, hsubmission, rfl, rfl⟩

theorem example_claim_admitted : Admitted exampleSettings .codePoint exampleDraws (fun _ _ => "")
    Bucket.empty (claimStep 0 "a" "shop" exampleKey) := by
  refine ⟨.claim (exampleRecord "a" "shop" exampleKey), example_valid, ?_⟩
  intro version other hcurrent
  cases hcurrent

theorem example_save_admitted : Admitted exampleSettings .codePoint exampleDraws (fun _ _ => "")
    exampleBucket (saveStep 1 "shop") := by
  refine ⟨.save _ ⟨rfl, .inl ⟨_, 0, example_checks.2.2.2, rfl, ?_⟩⟩, example_valid⟩
  intro _
  rfl

theorem example_admitted : Meets
    (fun bucket step => (bucket.perform exampleSettings step.label step.request).2)
    (Admitted exampleSettings .codePoint exampleDraws (fun _ _ => "")) Bucket.empty
    [claimStep 0 "a" "shop" exampleKey, saveStep 1 "shop"] :=
  ⟨example_claim_admitted, example_save_admitted, trivial⟩

theorem run_stores_agree_save :
    Lockstep (fun bucket step => bucket.perform exampleSettings step.label step.request)
      (mirroredPerform exampleSettings .codePoint exampleDraws) (fun _ _ _ => False)
      (fun bucket _ => SameAnswer exampleSettings exampleDraws bucket.runs) Bucket.empty
      Database.empty [claimStep 0 "a" "shop" exampleKey, saveStep 1 "shop"] := by
  obtain ⟨-, hdraws, hdistinct, -⟩ := example_checks
  have hvalid : ∀ step ∈ [claimStep 0 "a" "shop" exampleKey, saveStep 1 "shop"],
      isSha256 (exampleDraws step.label) = true :=
    fun step hstep => hdraws step.label (List.mem_map_of_mem hstep)
  have hlabels : ([claimStep 0 "a" "shop" exampleKey, saveStep 1 "shop"].map
      fun step => exampleDraws step.label).Nodup := hdistinct
  exact (run_stores_agree hvalid hlabels example_admitted).1

def appendStep (label attemptNumber : ℕ) : Step :=
  ⟨label, .appendAttempt (exampleAttempt attemptNumber),
    .appendAttempt (exampleAttempt attemptNumber)⟩

def listStep (label : ℕ) : Step := ⟨label, .list none 1, .list none 1⟩

/-- What the two stores answer to a request after some others. -/
def answersAfter (before : List Step) (last : Step) :
    Except RunStoreError StoreReply × Except RunStoreError PostgresqlRunStore.StoreReply :=
  let bucket := run (fun bucket step => (bucket.perform exampleSettings step.label step.request).2)
    Bucket.empty before
  let db := run (fun db step => (mirroredPerform exampleSettings .codePoint exampleDraws db step).2)
    Database.empty before
  ((bucket.perform exampleSettings last.label last.request).1,
    (mirroredPerform exampleSettings .codePoint exampleDraws db last).1)

def failedAs {α : Type} : Except RunStoreError α → Option ErrorClass
  | .error e => some (errorClass e)
  | .ok _ => none

def pageRuns : Except RunStoreError StoreReply → List String
  | .ok (.page page) => page.items.map fun stored => stored.record.runId
  | _ => []

def mirroredPageRuns : Except RunStoreError PostgresqlRunStore.StoreReply → List String
  | .ok (.page page) => page.items.map fun stored => stored.record.runId
  | _ => []

theorem size_largeResult : largeResult.utf8ByteSize = 16384 := by
  have hsize : ∀ n : ℕ, (String.ofList (List.replicate n 'a')).utf8ByteSize = n := by
    intro n
    induction n with
    | zero => rfl
    | succ n ih =>
      rw [List.replicate_succ, ← List.singleton_append, String.ofList_append,
        String.utf8ByteSize_append, ih, Nat.add_comm]
      rfl
  exact hsize 16384

theorem largeResult_ne_empty : largeResult ≠ "" := by
  intro hempty
  have hsize := size_largeResult
  rw [hempty] at hsize
  exact absurd hsize (by decide)

theorem loads_exampleCodec {text : String} (h : text ≠ "") :
    exampleCodec.loads text = .mapping largeResult := if_neg h

/-- The entry around a result as large as a result may be is larger than an entry may be. -/
theorem not_fits_of_large {large : String} (hlarge : large.utf8ByteSize = maxMutationBytes)
    (keySha256 operation runId : String) :
    MutationEntry.fits ⟨keySha256, operation, runId, large⟩ = false := by
  have hbrace : ("\x7b" : String).utf8ByteSize = 1 := by decide
  have hjoin : ∀ a b c d e : String, ",".intercalate [a, b, c, d, e] =
      a ++ "," ++ b ++ "," ++ c ++ "," ++ d ++ "," ++ e := fun _ _ _ _ _ => rfl
  have hsize : maxMutationBytes <
      (MutationEntry.serialize ⟨keySha256, operation, runId, large⟩).utf8ByteSize := by
    simp only [MutationEntry.serialize, Schedule.jsonObject, List.map_cons, List.map_nil,
      hjoin, String.utf8ByteSize_append, hlarge, hbrace]
    omega
  exact decide_eq_false (by omega)

/-- A mutation claimed in both stores. -/
def mutationStep : Step :=
  ⟨0, .claimMutation exampleKey "cancel" "a" "x", .claimMutation exampleKey "cancel" "a" "x"⟩

/-- A result that decodes to a large object is refused by S3 and taken by PostgreSQL. -/
theorem mutationStep_answers (settings : Settings) (collation : Collation) (draws : ℕ → String)
    {large : String} (hlarge : large.utf8ByteSize = maxMutationBytes) (hnonempty : large ≠ "")
    (hloads : ∀ text, text ≠ "" → settings.codec.loads text = .mapping large) :
    failedAs (Bucket.empty.perform settings 0 mutationStep.request).1 = some .corruption ∧
      failedAs (mirroredPerform settings collation draws Database.empty mutationStep).1 = none := by
  obtain ⟨⟨hrun, hcancel, -, -, hkey, -⟩, -⟩ := example_checks
  have hentry : mutationEntry settings.codec exampleKey "cancel" "a" "x" =
      .error (.corruption "The mutation result exceeds its durable bound.") := by
    simp [mutationEntry, checkedId, hrun, hcancel, hkey, hloads, not_fits_of_large hlarge, bind,
      Except.bind, throw, throwThe, MonadExceptOf.throw]
  have hread : ∀ text, text ≠ "" → text.utf8ByteSize ≤ maxMutationBytes →
      PostgresqlRunStore.canonicalMutationResult settings.codec text = .ok large := by
    intro text htext hsize
    obtain ⟨canonical, hmapping, -, -, -, hread, -⟩ | ⟨hunfit, -⟩ :=
      canonicalMutationResult_cases settings.codec text
    · obtain rfl := ResultValue.mapping.inj ((hloads text htext).symm.trans hmapping)
      exact hread
    · exact absurd ⟨htext, hsize, hlarge.le⟩ (hunfit large (hloads text htext))
  have hselect : Tables.select MutationRow.keySha256 (Tables.insertNew MutationRow.keySha256
      Database.empty.mutations ⟨exampleKey, "cancel", "a", large⟩) exampleKey =
        some ⟨exampleKey, "cancel", "a", large⟩ := by
    rw [Tables.insertNew_of_none rfl]
    simp [Tables.select, Database.empty]
  constructor
  · have hserve : serve (RunStore.claimMutation settings.codec 0 exampleKey "cancel" "a" "x") [] =
        (.error (.corruption "The mutation result exceeds its durable bound."), []) := by
      unfold RunStore.claimMutation
      rw [hentry]
      rfl
    simp only [mutationStep, Bucket.perform, Bucket.empty, hserve]
    rfl
  · have hclaim : ∃ db, PostgresqlRunStore.claimMutation Database.empty settings.codec exampleKey
        "cancel" "a" "x" = .ok (large, db) := by
      unfold PostgresqlRunStore.claimMutation
      simp [PostgresqlRunStore.checkedId, hrun, hcancel, hkey, hread "x" (by decide) (by decide),
        hselect, hread large hnonempty hlarge.le, bind, Except.bind, pure, Except.pure]
    obtain ⟨db, hclaim⟩ := hclaim
    simp only [mutationStep, mirroredPerform, PostgresqlRunStore.perform, hclaim]
    rfl

/-- Six ways the stores differ: a run identifier under a second key, an attempt of no run, an
attempt number beyond the integers of the database, a mutation result within one bound only, a
save over a snapshot with another identity, and the order of two names. -/
theorem stores_differ :
    Prod.map failedAs failedAs (answersAfter [claimStep 0 "a" "shop" exampleKey]
      (claimStep 1 "a" "shop" otherKey)) = (some .corruption, some .conflict) ∧
    Prod.map failedAs failedAs (answersAfter [] (appendStep 0 1)) = (none, some .failure) ∧
    Prod.map failedAs failedAs (answersAfter [claimStep 0 "a" "shop" exampleKey]
      (appendStep 1 2147483648)) = (none, some .failure) ∧
    Prod.map failedAs failedAs (answersAfter [] mutationStep) = (some .corruption, none) ∧
    Prod.map failedAs failedAs (answersAfter [claimStep 0 "a" "shop" exampleKey]
      (saveStep 1 "books")) = (none, some .corruption) ∧
    Prod.map pageRuns mirroredPageRuns (answersAfter [claimStep 0 "a" "shop" exampleKey,
      claimStep 1 "a-b" "shop" otherKey] (listStep 2)) = (["a-b"], ["a"]) := by
  refine ⟨by decide +kernel, by decide +kernel, by decide +kernel, ?_, by decide +kernel,
    by decide +kernel⟩
  have hanswers := mutationStep_answers exampleSettings .codePoint exampleDraws size_largeResult
    largeResult_ne_empty fun _ => loads_exampleCodec
  unfold answersAfter
  rw [Execution.run_nil, Execution.run_nil, Prod.map_apply]
  exact congrArg₂ Prod.mk hanswers.1 hanswers.2

end Examples

end Dander.RunStoreAgreement
