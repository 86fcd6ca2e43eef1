import Dander.CallTraces
import Dander.PostgresqlRunListings
import Dander.S3RunStoreSafety

/-!
# Listing the runs of S3

A page is a listing of names followed by a read of each snapshot on it, while calls of other
workers take effect in between. Snapshots are replaced and never removed.
-/
namespace Dander.S3RunListings

open Interleaving ObjectStore Orchestration RunStore
open KeysetPages (After IsPage isPage_take)
open Relation (ReflTransGen)
open RunListings
open RunStoreAgreement (mem_runIds nodup_runIds runIdOfName_runName serve_get_some)

section Program

inductive ListingOp where
  | object (o : Op ObjectName ObjectValue)
  | listObjects (startAfter : Option String) (maxKeys : ℕ)

/-- A listing answers with names and whether there are more of them, or fails. -/
def ListingOp.Res : ListingOp → Type
  | .object o => Reply (Payload o)
  | .listObjects .. => Option (List String × Bool)

abbrev Listing (α : Type) := Prog ListingOp ListingOp.Res RunStoreError α

/-- A listing has as many names as the service likes, up to those it was asked for. -/
def listing : Machine ListingOp ListingOp.Res RunStoreConfig where
  step
    | .object o, cfg, (reply : Reply (Payload o)), cfg' =>
      ∃ history, machine.step o cfg.state reply history ∧ cfg' = { cfg with state := history }
    | .listObjects startAfter maxKeys, cfg, (reply : Option (List String × Bool)), cfg' =>
      cfg' = cfg ∧ (reply = none ∨ ∃ n ≤ maxKeys,
        reply = some ((listedAfter cfg.state startAfter).take n,
          decide (n < (listedAfter cfg.state startAfter).length)))

variable (base64 : Base64) (runPrefix : String) (readable : ObjectValue → Bool)

def raising {α : Type} : Except RunStoreError α → Listing α
  | .ok value => .ret value
  | .error e => .raise e

def readEntry (runId : String) : Listing StoredRun :=
  (RunStore.get readable runId).embed .object (fun _ reply => reply) id >>= fun stored =>
    match stored with
    | none => .raise (.conflict "An S3 run snapshot disappeared during pagination.")
    | some stored => .ret stored

def readEntries : List String → Listing (List StoredRun)
  | [] => .ret []
  | runId :: rest => readEntry readable runId >>= fun stored =>
    readEntries rest >>= fun items => .ret (stored :: items)

/-- The page of the names that a listing answered with. -/
def pageOf (size : ℕ) (entries : List String) (truncated : Bool) : Listing StoredRunPage :=
  if truncated && entries.isEmpty then .raise (.corruption "The S3 run-store page is invalid.")
  else readEntries readable (entries.take size) >>= fun items =>
    .ret ⟨items, (entries.take size).getLast?.bind fun last =>
      if size < entries.length || truncated then some (encodeCursor base64 runPrefix last)
      else none⟩

def list (cursor : Option String) (limit : ℤ) : Listing StoredRunPage :=
  raising (checkedPageSize limit "The S3 run-store page size is invalid.") >>= fun size =>
    raising (decodeCursor base64 runPrefix cursor) >>= fun after =>
      .call (.listObjects after (size + 1)) fun (listed : Option (List String × Bool)) =>
        match listed with
        | none => .raise (.failure "The S3 run-store list failed.")
        | some (entries, truncated) => pageOf base64 runPrefix readable size entries truncated

end Program

section Binding

/-- Letters, digits, dots, underscores, slashes and dashes, a letter or a digit at both ends, with
no part between slashes that is empty or one or two dots. -/
def isPrefix (text : String) : Bool :=
  let chars := text.toList
  decide (2 ≤ chars.length ∧ chars.length ≤ 512) && chars.head?.any isAlphanumeric &&
    chars.getLast?.any isAlphanumeric &&
    chars.all (fun c => isAlphanumeric c || c = '.' || c = '_' || c = '/' || c = '-') &&
    (chars.splitOn '/').all (fun part => part ≠ [] && part ≠ ['.'] && part ≠ ['.', '.'])

/-- The prefix that a store is bound to. -/
structure PrefixBinding where
  text : String
  valid : isPrefix text = true

def PrefixBinding.runPrefix (binding : PrefixBinding) : String := binding.text ++ "/runs/"

end Binding

section Store

/-- The listing of a bucket that workers claim, read, find and save runs in. -/
def s3Runs (sha256 : String → String) (readable : ObjectValue → Bool) (binding : PrefixBinding) :
    ListedStore RunStoreConfig StoredRun where
  initial := .start []
  changes cfg cfg' := ∃ event, Admitted sha256 cfg event ∧
    Step machine (perform readable) cfg event cfg'
  lists cursor limit cfg answer cfg' := ∃ result,
    Among listing (fun cfg cfg' => ∃ event, Admitted sha256 cfg event ∧
      Step machine (perform readable) cfg event cfg')
      (list cursorBase64 binding.runPrefix readable cursor limit) cfg result cfg' ∧
    answer = result.map fun page => ⟨page.items, page.nextCursor⟩
  runId stored := stored.record.runId
  runs cfg := runIds cfg.state
  listed cfg run := run ∈ runIds cfg.state
  accepts text := ∃ after, decodeCursor cursorBase64 binding.runPrefix (some text) = .ok after
  intact cfg := ∀ runId version, current cfg.state (.run runId) = some version →
    isOpaqueId runId = true ∧ readable version.value = true

end Store

section Reads

variable {readable : ObjectValue → Bool} {sha256 : String → String}
  {others : RunStoreConfig → RunStoreConfig → Prop} {cfg cfg' : RunStoreConfig}

/-- Listings and reads of objects. -/
def OnlyReads : ListingOp → Prop
  | .object (.head _) => True
  | .object (.get ..) => True
  | .object _ => False
  | .listObjects .. => True

theorem eq_of_read {o : ListingOp} {reply : o.Res} (honly : OnlyReads o)
    (h : listing.step o cfg reply cfg') : cfg' = cfg := by
  cases o with
  | listObjects startAfter maxKeys => exact h.1
  | object o =>
    obtain ⟨history, hstep, rfl⟩ := h
    have hsame : (exec o cfg.state).2 = cfg.state := by
      cases o with
      | head name => rfl
      | get name etag =>
        simp only [exec]
        split <;> rfl
      | put name value expected author => exact honly.elim
      | delete name etag author => exact honly.elim
    have hhistory : history = cfg.state := by
      rcases hstep with hexec | ⟨-, hkept | happlied⟩
      · have hstate := congrArg Prod.snd hexec
        rw [hsame] at hstate
        exact hstate.symm
      · exact hkept
      · rw [happlied, hsame]
    rw [hhistory]

theorem only_readObject (name : ObjectName) (tries : ℕ) :
    (readObject readable name tries).Only fun o => OnlyReads (.object o) := by
  induction tries with
  | zero => trivial
  | succ tries ih =>
    refine ⟨trivial, ?_⟩
    rintro (⟨_ | etag⟩ | _ | _)
    · trivial
    · refine ⟨trivial, ?_⟩
      rintro (value | _ | _)
      · simp only
        split <;> trivial
      · exact ih
      · trivial
    · trivial
    · trivial

theorem only_get (runId : String) :
    (RunStore.get readable runId).Only fun o => OnlyReads (.object o) := by
  unfold RunStore.get
  split
  · trivial
  · apply (only_readObject _ _).bind
    rintro (_ | ⟨_ | _, _⟩)
    · trivial
    · simp only
      split <;> trivial
    · trivial

theorem gives_get (runId : String) :
    (RunStore.get readable runId).Gives fun loaded => ∀ stored, loaded = some stored →
      stored.record.runId = runId ∧ isOpaqueId runId = true := by
  unfold RunStore.get
  split
  · trivial
  next hident =>
    apply (Prog.Gives.of_all (P := fun _ => True) (fun _ => trivial) _).bind
    rintro (_ | ⟨_ | _, _⟩) -
    · rintro stored ⟨⟩
    · simp only
      split
      · trivial
      next hid =>
        rintro stored ⟨⟩
        exact ⟨not_not.mp hid, by simpa using hident⟩
    · trivial

theorem only_readEntry (runId : String) : (readEntry readable runId).Only OnlyReads := by
  apply (only_get runId).embed.bind
  rintro (_ | stored) <;> trivial

theorem only_readEntries (runIds : List String) : (readEntries readable runIds).Only OnlyReads := by
  induction runIds with
  | nil => trivial
  | cons runId rest ih =>
    apply (only_readEntry runId).bind
    intro stored
    apply ih.bind
    intro items
    trivial

theorem only_pageOf {base64 : Base64} {runPrefix : String} (size : ℕ) (entries : List String)
    (truncated : Bool) :
    (pageOf base64 runPrefix readable size entries truncated).Only OnlyReads := by
  unfold pageOf
  split
  · trivial
  · apply (only_readEntries _).bind
    intro items
    trivial

theorem gives_readEntry (runId : String) :
    (readEntry readable runId).Gives fun stored =>
      stored.record.runId = runId ∧ isOpaqueId runId = true := by
  apply (gives_get runId).embed.bind
  rintro (_ | stored) h
  · trivial
  · exact h stored rfl

/-- The snapshots of a page are those of its names, and the names are identifiers. -/
theorem gives_readEntries (runIds : List String) :
    (readEntries readable runIds).Gives fun items =>
      items.map (fun stored => stored.record.runId) = runIds ∧
        ∀ runId ∈ runIds, isOpaqueId runId = true := by
  induction runIds with
  | nil => exact ⟨rfl, by simp⟩
  | cons runId rest ih =>
    apply (gives_readEntry runId).bind
    rintro stored ⟨hid, hident⟩
    apply ih.bind
    rintro items ⟨hids, hrest⟩
    constructor
    · rw [List.map_cons, hid, hids]
    · intro other hother
      rcases List.mem_cons.mp hother with rfl | hother
      · exact hident
      · exact hrest other hother

/-- A read that nobody interferes with. -/
theorem among_serve {α : Type} (p : Action α) (cfg : RunStoreConfig) :
    Among listing others (p.embed .object (fun _ reply => reply) id) cfg (serve p cfg.state).1
      { cfg with state := (serve p cfg.state).2 } := by
  induction p generalizing cfg with
  | ret a => exact .ret a cfg
  | raise e => exact .raise e cfg
  | call o next ih =>
    have hstep : listing.step (.object o) cfg (exec o cfg.state).1
        { cfg with state := (exec o cfg.state).2 } := ⟨_, .inl rfl, rfl⟩
    exact .perform .refl hstep (ih _ { cfg with state := (exec o cfg.state).2 })

theorem among_readEntries {runIds : List String}
    (h : ∀ runId ∈ runIds, ∃ etag record, isOpaqueId runId = true ∧
      current cfg.state (.run runId) = some ⟨etag, .run record⟩ ∧ readable (.run record) = true ∧
        record.runId = runId) :
    ∃ items, Among listing others (readEntries readable runIds) cfg (.ok items) cfg := by
  induction runIds with
  | nil => exact ⟨[], .ret [] cfg⟩
  | cons runId rest ih =>
    obtain ⟨items, hitems⟩ := ih fun other hother => h other (List.mem_cons_of_mem runId hother)
    obtain ⟨etag, record, hident, hcurrent, hreadable, hid⟩ := h runId List.mem_cons_self
    have hserve : Among listing others _ cfg _ _ := among_serve (RunStore.get readable runId) cfg
    rw [serve_get_some hident hcurrent hreadable hid] at hserve
    have hentry : Among listing others (readEntry readable runId) cfg (.ok ⟨record, etag⟩) cfg :=
      hserve.bind (.ret (StoredRun.mk record etag) cfg)
    exact ⟨_, hentry.bind (hitems.bind (.ret (StoredRun.mk record etag :: items) cfg))⟩

end Reads

section Pages

variable {sha256 : String → String} {readable : ObjectValue → Bool} {binding : PrefixBinding}
  {cfg cfg' : RunStoreConfig} {cursor : Option String} {limit : ℤ}

/-- The workers keep to the store's rules. -/
def Orderly (sha256 : String → String) (readable : ObjectValue → Bool) (cfg : RunStoreConfig) :
    Prop :=
  PoolSafe machine (discipline sha256) Succeeded (Failed readable) cfg

theorem current_isSome {history : RunHistory} {name : ObjectName} {write : Write _ _}
    (hmem : write ∈ history) (hname : write.name = name)
    (hvalues : ∀ other ∈ history, other.name = name → other.value.isSome) :
    (current history name).isSome := by
  induction history with
  | nil => cases hmem
  | cons last older ih =>
    by_cases hlast : last.name = name
    · subst hlast
      rw [current_cons_self, Option.isSome_map]
      exact hvalues last List.mem_cons_self rfl
    · rw [current_cons_of_ne hlast]
      rcases List.mem_cons.mp hmem with rfl | hold
      · exact absurd hname hlast
      · exact ih hold fun other hother => hvalues other (List.mem_cons_of_mem last hother)

/-- A snapshot that is there stays. -/
theorem runIds_subset {history later : RunHistory} (hinv : Consistent sha256 later)
    (hle : Grows history later) : runIds history ⊆ runIds later := by
  intro runId hmem
  rw [mem_runIds] at hmem ⊢
  obtain ⟨version, hcurrent⟩ := Option.isSome_iff_exists.mp hmem
  obtain ⟨author, hrecorded⟩ := recorded_of_current hcurrent
  apply current_isSome (hle.1.subset (mem_of_recorded hrecorded)) rfl
  intro other hother hname
  obtain ⟨record, entry, hvalue, -⟩ := hinv.runs other hother runId hname
  rw [hvalue]
  rfl

theorem Orderly.step (h : Orderly sha256 readable cfg)
    (change : (s3Runs sha256 readable binding).changes cfg cfg') :
    Orderly sha256 readable cfg' ∧ runIds cfg.state ⊆ runIds cfg'.state := by
  obtain ⟨event, admitted, next⟩ := change
  obtain ⟨hsafe, hle⟩ := PoolSafe.step succeeded_stable failed_stable
    (fun i c he _ => safe_perform (he ▸ admitted)) h next
  exact ⟨hsafe, runIds_subset hsafe.1 hle⟩

theorem Orderly.later (h : Orderly sha256 readable cfg)
    (waited : ReflTransGen (s3Runs sha256 readable binding).changes cfg cfg') :
    Orderly sha256 readable cfg' ∧ runIds cfg.state ⊆ runIds cfg'.state := by
  induction waited with
  | refl => exact ⟨h, List.Subset.refl _⟩
  | tail before change ih =>
    obtain ⟨hfirst, hsub⟩ := ih
    obtain ⟨hlast, hsub'⟩ := hfirst.step change
    exact ⟨hlast, List.Subset.trans hsub hsub'⟩

/-- What others and reads do keeps the snapshots. -/
theorem Orderly.among {α : Type} {p : Listing α} {out : Except RunStoreError α}
    (h : Orderly sha256 readable cfg) (honly : p.Only OnlyReads)
    (hrun : Among listing (s3Runs sha256 readable binding).changes p cfg out cfg') :
    Orderly sha256 readable cfg' ∧ runIds cfg.state ⊆ runIds cfg'.state := by
  have hkept := hrun.keeps
    (fun cfg cfg' => Orderly sha256 readable cfg →
      Orderly sha256 readable cfg' ∧ runIds cfg.state ⊆ runIds cfg'.state)
    (fun cfg h => ⟨h, List.Subset.refl _⟩)
    (fun first second third hfirst hsecond h => by
      obtain ⟨hmid, hsub⟩ := hfirst h
      obtain ⟨hlast, hsub'⟩ := hsecond hmid
      exact ⟨hlast, List.Subset.trans hsub hsub'⟩)
    (fun cfg cfg' change h => h.step change)
    (fun o cfg reply cfg' hreads hstep h => by
      rw [eq_of_read hreads hstep]
      exact ⟨h, List.Subset.refl _⟩)
    honly
  exact hkept h

/-- The run that a cursor stands for. -/
def cursorRun (binding : PrefixBinding) (text : String) : Option String :=
  (cursorBase64.decode text).bind (runIdOfName binding.runPrefix)

theorem cursorRun_encode (runId : String) :
    cursorRun binding (encodeCursor cursorBase64 binding.runPrefix runId) = some runId := by
  unfold cursorRun encodeCursor
  rw [cursorBase64.decode_encode, Option.bind_some, runIdOfName_runName]

theorem decodeCursor_eq_ok {after : Option String}
    (h : decodeCursor cursorBase64 binding.runPrefix cursor = .ok after) :
    after = cursor.bind (cursorRun binding) := by
  cases cursor with
  | none => exact (Except.ok.inj h).symm
  | some text =>
    unfold decodeCursor at h
    simp only at h
    split at h
    · cases h
    · rw [Option.bind_some]
      unfold cursorRun
      cases hrun : (cursorBase64.decode text).bind (runIdOfName binding.runPrefix) with
      | none =>
        rw [hrun] at h
        cases h
      | some runId =>
        rw [hrun] at h
        simp only at h
        split at h
        · exact (Except.ok.inj h).symm
        · cases h

theorem ascii_of_isPrefix {text : String} (h : isPrefix text = true) :
    text.toList.length ≤ 512 ∧ ∀ c ∈ text.toList, c.toNat < 128 := by
  unfold isPrefix at h
  simp only [Bool.and_eq_true, decide_eq_true_eq, List.all_eq_true, Bool.or_eq_true] at h
  obtain ⟨⟨⟨⟨⟨-, hlength⟩, -⟩, -⟩, hall⟩, -⟩ := h
  refine ⟨hlength, ?_⟩
  intro c hc
  rcases hall c hc with (((hword | rfl) | rfl) | rfl) | rfl
  · exact ascii_of_isAlphanumeric hword
  all_goals decide

/-- The name of a run fits a cursor under every prefix. -/
theorem decodeCursor_encode {runId : String} (h : isOpaqueId runId = true) :
    decodeCursor cursorBase64 binding.runPrefix
      (some (encodeCursor cursorBase64 binding.runPrefix runId)) = .ok (some runId) := by
  obtain ⟨hnonempty, hshort, hascii⟩ := ascii_of_isOpaqueId h
  obtain ⟨hbound, hbinding⟩ := ascii_of_isPrefix binding.valid
  have hsize : (runName binding.runPrefix runId).utf8ByteSize ≤ 651 := by
    have hruns : ("/runs/" : String).utf8ByteSize = 6 := by decide +kernel
    have hjson : (".json" : String).utf8ByteSize = 5 := by decide +kernel
    unfold runName PrefixBinding.runPrefix
    rw [String.utf8ByteSize_append, String.utf8ByteSize_append, String.utf8ByteSize_append,
      Base64Text.utf8ByteSize_of_ascii hascii, Base64Text.utf8ByteSize_of_ascii hbinding]
    omega
  have hpositive : 1 ≤ (runName binding.runPrefix runId).utf8ByteSize := by
    unfold runName
    rw [String.utf8ByteSize_append, String.utf8ByteSize_append,
      Base64Text.utf8ByteSize_of_ascii hascii]
    omega
  have hlength : (encodeCursor cursorBase64 binding.runPrefix runId).toList.length =
      4 * (((runName binding.runPrefix runId).utf8ByteSize + 2) / 3) :=
    Base64Text.length_encodeText _
  have hrun : cursorRun binding _ = some runId := cursorRun_encode runId
  unfold cursorRun at hrun
  unfold decodeCursor
  simp only
  rw [if_neg (by
    rintro (hempty | hlong)
    · rw [hempty] at hlength
      simp only [String.toList_empty, List.length_nil] at hlength
      omega
    · omega), hrun]
  exact if_pos h

/-- What a page of the names of a listing tells. -/
theorem pageOf_eq_ok {others : RunStoreConfig → RunStoreConfig → Prop} {size : ℕ}
    {entries : List String} {truncated : Bool} {page : StoredRunPage}
    (h : Among listing others
      (pageOf cursorBase64 binding.runPrefix readable size entries truncated) cfg (.ok page) cfg') :
    (truncated = true → entries ≠ []) ∧
      page.items.map (fun stored => stored.record.runId) = entries.take size ∧
      (∀ runId ∈ entries.take size, isOpaqueId runId = true) ∧
      page.nextCursor = (entries.take size).getLast?.bind fun last =>
        if size < entries.length || truncated then
          some (encodeCursor cursorBase64 binding.runPrefix last) else none := by
  unfold pageOf at h
  split at h
  · cases h
  next hentries =>
    obtain ⟨items, mid, hitems, hpage⟩ := h.bind_eq_ok
    obtain ⟨hids, hident⟩ := (gives_readEntries _).returned hitems
    cases hpage
    refine ⟨?_, hids, hident, rfl⟩
    rintro rfl rfl
    exact hentries rfl

/-- The first names of a listing, up to where it was cut and to the size of the page. -/
theorem isPage_listed {history : RunHistory} {after next : Option String} {size n : ℕ}
    (hpositive : 1 ≤ size)
    (hnonempty : decide (n < (listedAfter history after).length) = true →
      (listedAfter history after).take n ≠ [])
    (hnext : next = (((listedAfter history after).take n).take size).getLast?.bind fun last =>
      if size < ((listedAfter history after).take n).length ||
        decide (n < (listedAfter history after).length) then some last else none) :
    IsPage nameLe (· ∈ runIds history) after (((listedAfter history after).take n).take size)
      next := by
  have hsorted : (listedAfter history after).Pairwise nameLe := List.pairwise_insertionSort _ _
  have hnodup : (listedAfter history after).Nodup :=
    (List.perm_insertionSort nameLe _).nodup_iff.mpr ((nodup_runIds history).filter _)
  have hmem : ∀ run, run ∈ listedAfter history after ↔
      run ∈ runIds history ∧ After nameLe after run := by
    intro run
    unfold listedAfter
    rw [List.mem_insertionSort, List.mem_filter]
    cases after with
    | none => simp [After]
    | some last => simp [After]
  generalize listedAfter history after = all at *
  rw [List.take_take] at hnext ⊢
  apply isPage_take hsorted hnodup hmem
  · intro last hlast
    rw [hlast] at hnext
    obtain ⟨final, hfinal, hshown⟩ := Option.bind_eq_some_iff.mp hnext.symm
    split at hshown
    · rw [hfinal, hshown]
    · cases hshown
  · rintro rfl
    cases hfinal : (all.take (min size n)).getLast? with
    | none =>
      rw [List.getLast?_eq_none_iff, List.take_eq_nil_iff] at hfinal
      rcases hfinal with hzero | rfl
      · have hn : n = 0 := by omega
        subst hn
        rw [List.take_zero, decide_eq_true_eq] at hnonempty
        by_contra hlong
        exact hnonempty (by omega) rfl
      · simp
    | some last =>
      rw [hfinal, Option.bind_some] at hnext
      split at hnext
      · cases hnext
      next hmore =>
        rw [Bool.or_eq_true, decide_eq_true_eq, decide_eq_true_eq, List.length_take] at hmore
        omega

theorem raising_eq_ok {α : Type} {others : RunStoreConfig → RunStoreConfig → Prop}
    {result : Except RunStoreError α} {value : α}
    (h : Among listing others (raising result) cfg (.ok value) cfg') :
    result = .ok value ∧ cfg' = cfg := by
  cases result with
  | error e => cases h
  | ok value' =>
    cases h
    exact ⟨rfl, rfl⟩

/-- A page of the listing, whatever the others do meanwhile. -/
theorem isPage_list (h : Orderly sha256 readable cfg) {page : StoredRunPage}
    (hlist : Among listing (s3Runs sha256 readable binding).changes
      (list cursorBase64 binding.runPrefix readable cursor limit) cfg (.ok page) cfg') :
    Orderly sha256 readable cfg' ∧ runIds cfg.state ⊆ runIds cfg'.state ∧
      page.items.map (fun stored => stored.record.runId) ⊆ runIds cfg'.state ∧
      IsPage nameLe (· ∈ runIds cfg.state) (cursor.bind (cursorRun binding))
        (page.items.map fun stored => stored.record.runId)
        (page.nextCursor.bind (cursorRun binding)) ∧
      ∀ text, page.nextCursor = some text → (s3Runs sha256 readable binding).accepts text ∧
        (cursorRun binding text).isSome := by
  unfold list at hlist
  obtain ⟨size, first, hfirst, hlisted⟩ := hlist.bind_eq_ok
  obtain ⟨hsize, rfl⟩ := raising_eq_ok hfirst
  obtain ⟨after, second, hsecond, hlisted⟩ := hlisted.bind_eq_ok
  obtain ⟨hafter, rfl⟩ := raising_eq_ok hsecond
  obtain rfl := decodeCursor_eq_ok hafter
  have hpositive : 1 ≤ size := by
    unfold checkedPageSize at hsize
    split at hsize
    · obtain rfl := Except.ok.inj hsize
      omega
    · cases hsize
  cases hlisted with
  | @perform _ _ _ mid mid' _ reply _ waited done later =>
    obtain ⟨rfl, rfl | ⟨n, hn, rfl⟩⟩ := done
    · cases later
    · obtain ⟨hmid, hbefore⟩ : Orderly sha256 readable mid' ∧
          runIds second.state ⊆ runIds mid'.state := h.later waited
      obtain ⟨hlast, hafterwards⟩ := hmid.among (only_pageOf _ _ _) later
      obtain ⟨hnonempty, hids, hident, hcursor⟩ := pageOf_eq_ok later
      rw [hids]
      refine ⟨hlast, List.Subset.trans hbefore hafterwards, ?_, ?_, ?_⟩
      · intro run hrun
        apply hafterwards
        have hlisted := List.mem_of_mem_take (List.mem_of_mem_take hrun)
        unfold listedAfter at hlisted
        rw [List.mem_insertionSort] at hlisted
        exact (List.mem_filter.mp hlisted).1
      · have hnext : page.nextCursor.bind (cursorRun binding) =
            (((listedAfter mid'.state (cursor.bind (cursorRun binding))).take n).take
              size).getLast?.bind fun last =>
                if size < ((listedAfter mid'.state (cursor.bind (cursorRun binding))).take
                    n).length ||
                  decide (n < (listedAfter mid'.state (cursor.bind (cursorRun binding))).length)
                then some last else none := by
          rw [hcursor]
          cases (((listedAfter mid'.state (cursor.bind (cursorRun binding))).take n).take
            size).getLast? with
          | none => rfl
          | some last =>
            simp only [Option.bind_some]
            split
            · rw [Option.bind_some, cursorRun_encode]
            · rfl
        exact (isPage_listed hpositive hnonempty hnext).of_fewer fun run hrun => hbefore hrun
      · intro text htext
        rw [hcursor] at htext
        obtain ⟨last, hlastEntry, htext⟩ := Option.bind_eq_some_iff.mp htext
        split at htext
        · obtain rfl := Option.some.inj htext
          refine ⟨⟨_, decodeCursor_encode (hident last (List.mem_of_getLast? hlastEntry))⟩, ?_⟩
          rw [cursorRun_encode]
          rfl
        · cases htext

/-- A store that is left alone and whose snapshots can be read answers. -/
theorem list_answers (h : Orderly sha256 readable cfg)
    (hintact : (s3Runs sha256 readable binding).intact cfg)
    (haccepts : ∀ text, cursor = some text → (s3Runs sha256 readable binding).accepts text)
    (hpositive : 1 ≤ limit) (hbound : limit ≤ 100) :
    ∃ page, Among listing (s3Runs sha256 readable binding).changes
      (list cursorBase64 binding.runPrefix readable cursor limit) cfg (.ok page) cfg := by
  have hsize : checkedPageSize limit "The S3 run-store page size is invalid." =
      .ok limit.toNat := if_pos ⟨hpositive, hbound⟩
  have hafter : ∃ after, decodeCursor cursorBase64 binding.runPrefix cursor = .ok after := by
    cases cursor with
    | none => exact ⟨none, rfl⟩
    | some text => exact haccepts text rfl
  obtain ⟨after, hafter⟩ := hafter
  have hstored : ∀ runId ∈ ((listedAfter cfg.state after).take (limit.toNat + 1)).take limit.toNat,
      ∃ etag record, isOpaqueId runId = true ∧
        current cfg.state (.run runId) = some ⟨etag, .run record⟩ ∧
          readable (.run record) = true ∧ record.runId = runId := by
    intro runId hrun
    have hlisted := List.mem_of_mem_take (List.mem_of_mem_take hrun)
    unfold listedAfter at hlisted
    rw [List.mem_insertionSort] at hlisted
    have hthere := mem_runIds.mp (List.mem_filter.mp hlisted).1
    obtain ⟨⟨etag, value⟩, hcurrent⟩ := Option.isSome_iff_exists.mp hthere
    obtain ⟨record, entry, rfl, hid, -⟩ := h.1.run_of_current hcurrent
    obtain ⟨hident, hreadable⟩ := hintact runId _ hcurrent
    exact ⟨etag, record, hident, hcurrent, hreadable, hid⟩
  obtain ⟨items, hitems⟩ : ∃ items, Among listing (s3Runs sha256 readable binding).changes
      _ cfg (.ok items) cfg := among_readEntries hstored
  have hlisting : listing.step (.listObjects after (limit.toNat + 1)) cfg
      (some ((listedAfter cfg.state after).take (limit.toNat + 1),
        decide (limit.toNat + 1 < (listedAfter cfg.state after).length))) cfg :=
    ⟨rfl, .inr ⟨_, le_rfl, rfl⟩⟩
  have hnonempty : ¬ (decide (limit.toNat + 1 < (listedAfter cfg.state after).length) &&
      ((listedAfter cfg.state after).take (limit.toNat + 1)).isEmpty) = true := by
    rw [Bool.and_eq_true, decide_eq_true_eq, List.isEmpty_iff, List.take_eq_nil_iff]
    rintro ⟨hlong, hzero | hnil⟩
    · omega
    · rw [hnil] at hlong
      simp at hlong
  obtain ⟨page, hpage⟩ : ∃ page, Among listing (s3Runs sha256 readable binding).changes
      (pageOf cursorBase64 binding.runPrefix readable limit.toNat
        ((listedAfter cfg.state after).take (limit.toNat + 1))
        (decide (limit.toNat + 1 < (listedAfter cfg.state after).length))) cfg (.ok page) cfg := by
    unfold pageOf
    rw [if_neg hnonempty]
    exact ⟨_, hitems.bind (.ret _ cfg)⟩
  refine ⟨page, ?_⟩
  unfold list
  rw [hsize, hafter]
  exact .perform .refl hlisting hpage

end Pages

section Store

variable (sha256 : String → String) (readable : ObjectValue → Bool) (binding : PrefixBinding)
  (codec : ResultCodec) (collation : GraphStore.Collation)

theorem s3Runs_pagesByKey :
    PagesByKey (s3Runs sha256 readable binding) nameLe (Orderly sha256 readable)
      (cursorRun binding) := by
  constructor
  · exact start_poolSafe
  · intro cfg cfg' h change
    exact h.step change
  · rintro cursor limit cfg page cfg' h ⟨result, hlist, hanswer⟩
    cases result with
    | error e => cases hanswer
    | ok stored =>
      obtain rfl := Except.ok.inj hanswer
      exact isPage_list h hlist

/-- Following the cursors of either store, or of the pending runs of PostgreSQL, from the first
page returns each run that is listed throughout exactly once, and ends; a cursor that was handed
out is accepted. -/
theorem runs_are_listed_once :
    ListsEachRunOnce (s3Runs sha256 readable binding) ∧
      ListsEachRunOnce (postgresqlRuns codec collation false) ∧
      ListsEachRunOnce (postgresqlRuns codec collation true) := by
  refine ⟨?_, postgresqlRuns_listsEachRunOnce, postgresqlRuns_listsEachRunOnce⟩
  apply (s3Runs_pagesByKey sha256 readable binding).listsEachRunOnce
  intro cfg cursor limit h hintact haccepts hpositive hbound
  obtain ⟨page, hlist⟩ := list_answers h hintact haccepts hpositive hbound
  exact ⟨⟨page.items, page.nextCursor⟩, _, hlist, rfl⟩

end Store

end Dander.S3RunListings
