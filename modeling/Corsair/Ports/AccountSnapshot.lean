import Corsair.Verified.LastWrite
import Corsair.Verified.Runs
import Corsair.Ports.RestingSweep
import Corsair.Ports.RiskState

/-!
# `account_values`: which row of the cache a snapshot shows

The gateway sends each account value once for every currency that the account holds, and
`route` caches it by key, currency and account.  `account_values` walks the cache in the
order in which the hash map yields it, leaves out the rows of other accounts, and writes
the value of a row under its key: the last row of a key wins, whatever its currency.

## Main results

* `get_accountValues` — a field of the snapshot is a last write.
* `account_snapshot_iff` — a snapshot depends neither on the order of the cache nor on the
  rows in foreign currencies exactly if these say what the base row says.
-/

namespace Corsair.Ports.AccountSnapshot

open Corsair.Verified
open Corsair.Verified.Runs
open Corsair.Verified.LastWrite
open Corsair.Ports.Portfolio (Date)
open Corsair.Ports.BrokerApi (AccountSnapshot)
open Corsair.Ports.NativeDecoder (TextFormats)
open Corsair.Ports.RiskState

/-! ## The fields of a snapshot -/

/-- The fields that a row may write. -/
inductive Field
  | netLiquidation
  | maintenanceMargin
  | initialMargin
  | buyingPower
  | realizedPnlToday
  deriving DecidableEq, Repr

namespace Field

/-- The key of the rows that write the field. -/
def key : Field → String
  | netLiquidation => "NetLiquidation"
  | maintenanceMargin => "MaintMarginReq"
  | initialMargin => "InitMarginReq"
  | buyingPower => "BuyingPower"
  | realizedPnlToday => "RealizedPnL"

def get {F : Type} (snap : AccountSnapshot F) : Field → F
  | netLiquidation => snap.netLiquidation
  | maintenanceMargin => snap.maintenanceMargin
  | initialMargin => snap.initialMargin
  | buyingPower => snap.buyingPower
  | realizedPnlToday => snap.realizedPnlToday

end Field

/-- A snapshot is its fields and its stamp. -/
theorem snapshot_ext {F : Type} {snap snap' : AccountSnapshot F}
    (hstamp : snap.timestampNs = snap'.timestampNs)
    (hfields : ∀ f : Field, f.get snap = f.get snap') : snap = snap' := by
  cases snap
  cases snap'
  have hnet := hfields .netLiquidation
  have hmaint := hfields .maintenanceMargin
  have hinit := hfields .initialMargin
  have hpower := hfields .buyingPower
  have hpnl := hfields .realizedPnlToday
  simp only [Field.get] at hstamp hnet hmaint hinit hpower hpnl
  subst hstamp hnet hmaint hinit hpower hpnl
  rfl

variable {F : Type} [F64 F]

/-- `v.value.parse().unwrap_or(0.0)`. -/
def parsed (fmt : TextFormats F Date) (v : AccountValueMsg) : F :=
  (fmt.float v.value).toOption.getD F64.zero

/-- What a row writes into a field of the snapshot of an account. -/
def writes (fmt : TextFormats F Date) (account : String) (f : Field) (v : AccountValueMsg) :
    Option F :=
  if v.account = account ∧ v.key = f.key then some (parsed fmt v) else none

theorem get_withValue (fmt : TextFormats F Date) (snap : AccountSnapshot F) (v : AccountValueMsg)
    (f : Field) :
    f.get (withValue fmt snap v) = if v.key = f.key then parsed fmt v else f.get snap := by
  unfold withValue parsed
  cases f <;> simp only [Field.key, Field.get] <;> split_ifs <;> simp_all

/-- The rows of the cache. -/
def rows (values : AccountValues) : List AccountValueMsg := values.entries.map (·.2)

/-- **A field of the snapshot** is what the last row for it wrote, or zero. -/
theorem get_accountValues (fmt : TextFormats F Date) (account : String) (values : AccountValues)
    (order : List Nat) (now : Nat) (f : Field) :
    f.get (accountValues fmt account values order now) =
      lastWrite (writes fmt account f) F64.zero (yielded order (rows values)) := by
  have hfold (snap : AccountSnapshot F) (vs : List AccountValueMsg) :
      f.get ((vs.filter (·.account = account)).foldl (withValue fmt) snap) =
        lastWrite (writes fmt account f) (f.get snap) vs := by
    induction vs generalizing snap with
    | nil => rfl
    | cons v rest ih =>
        rw [lastWrite_cons]
        by_cases hown : v.account = account
        · rw [List.filter_cons_of_pos (by simpa using hown), List.foldl_cons, ih, get_withValue]
          by_cases hkey : v.key = f.key
          · simp [writes, hown, hkey]
          · simp [writes, hkey]
        · rw [List.filter_cons_of_neg (by simpa using hown), ih]
          simp [writes, hown]
  have hzero : f.get ({ emptySnapshot with timestampNs := now } : AccountSnapshot F) =
      F64.zero := by
    cases f <;> rfl
  show f.get ((_ : List AccountValueMsg).foldl (withValue fmt) _) = _
  rw [← hzero]
  exact hfold _ _

/-! ## The cache of a sequence of messages -/

/-- The key of a row in the cache. -/
def cacheKey (a : AccountValueMsg) : String × String × String := (a.key, a.currency, a.account)

/-- The cache after the messages. -/
def cached (msgs : List AccountValueMsg) : AccountValues := run routeAccountValue ∅ msgs

theorem lookup_routeAccountValue (values : AccountValues) (a : AccountValueMsg)
    (key : String × String × String) :
    (routeAccountValue values a).lookup key =
      if cacheKey a = key then some a else values.lookup key := by
  show (values.insert (cacheKey a) a).lookup key = _
  by_cases hkey : cacheKey a = key
  · rw [if_pos hkey, ← hkey, AList.lookup_insert]
  · rw [if_neg hkey, AList.lookup_insert_ne fun h => hkey h.symm]

/-- A row of the cache is the last message under its key. -/
theorem lookup_cached (msgs : List AccountValueMsg) (key : String × String × String) :
    (cached msgs).lookup key =
      lastWrite (fun a => if cacheKey a = key then some (some a) else none) none msgs := by
  have hfold (values : AccountValues) :
      (run routeAccountValue values msgs).lookup key =
        lastWrite (fun a => if cacheKey a = key then some (some a) else none)
          (values.lookup key) msgs := by
    induction msgs generalizing values with
    | nil => rfl
    | cons a rest ih =>
        rw [run_cons, ih, lookup_routeAccountValue, lastWrite_cons]
        split
        · rfl
        · rfl
  exact hfold ∅

/-- Every row is cached under its own key. -/
theorem cacheKey_of_lookup {msgs : List AccountValueMsg} {key : String × String × String}
    {v : AccountValueMsg} (h : (cached msgs).lookup key = some v) : cacheKey v = key := by
  rw [lookup_cached] at h
  rcases lastWrite_eq_or (fun a => if cacheKey a = key then some (some a) else none) none msgs
    with ⟨a, -, hwrite⟩ | ⟨-, hnone⟩
  · rw [h] at hwrite
    split at hwrite
    · rename_i hkey
      obtain rfl := Option.some.inj (Option.some.inj hwrite)
      exact hkey
    · cases hwrite
  · rw [h] at hnone
    cases hnone

theorem mem_rows_cached {msgs : List AccountValueMsg} {v : AccountValueMsg} :
    v ∈ rows (cached msgs) ↔ (cached msgs).lookup (cacheKey v) = some v := by
  constructor
  · intro h
    obtain ⟨e, he, rfl⟩ := List.mem_map.mp h
    have hlookup := AList.mem_lookup_iff.mpr he
    rwa [cacheKey_of_lookup hlookup]
  · intro h
    exact List.mem_map.mpr ⟨_, AList.mem_lookup_iff.mp h, rfl⟩

/-- Without the messages in foreign currencies the cache has the base rows, and no
others. -/
theorem lookup_cached_filter (base : String) (msgs : List AccountValueMsg)
    (key : String × String × String) :
    (cached (msgs.filter (·.currency = base))).lookup key =
      if key.2.1 = base then (cached msgs).lookup key else none := by
  rw [lookup_cached, lookup_cached, lastWrite_filter]
  by_cases hbase : key.2.1 = base
  · rw [if_pos hbase]
    congr 1
    funext a
    by_cases hkey : cacheKey a = key
    · subst hkey
      simp [show a.currency = base from hbase]
    · simp [hkey]
  · rw [if_neg hbase]
    refine lastWrite_of_none fun a _ => ?_
    by_cases hkey : cacheKey a = key
    · subst hkey
      simp [show ¬ a.currency = base from hbase]
    · simp [hkey]

/-! ## Order and currency -/

/-- What the base row says of a field: zero without one. -/
def baseValue (fmt : TextFormats F Date) (base account : String) (values : AccountValues)
    (f : Field) : F :=
  ((values.lookup (f.key, base, account)).map (parsed fmt)).getD F64.zero

/-- Every row of the account says what the base row of its key says. -/
def RowsAgree (fmt : TextFormats F Date) (base account : String) (values : AccountValues) : Prop :=
  ∀ (f : Field), ∀ v ∈ rows values, v.account = account → v.key = f.key →
    parsed fmt v = baseValue fmt base account values f

/-- The snapshot depends neither on the order of the cache nor on the messages in
currencies other than `base`. -/
def WellDefined (fmt : TextFormats F Date) (base account : String) (now : Nat)
    (msgs : List AccountValueMsg) : Prop :=
  ∀ order order',
    accountValues fmt account (cached msgs) order now =
        accountValues fmt account (cached msgs) order' now ∧
      accountValues fmt account (cached msgs) order now =
        accountValues fmt account (cached (msgs.filter (·.currency = base))) order' now

/-- A field has one value in every order just if the rows for it have. -/
theorem get_accountValues_iff (fmt : TextFormats F Date) (account : String)
    (values : AccountValues) (now : Nat) (f : Field) (c : F) :
    (∀ order, f.get (accountValues fmt account values order now) = c) ↔
      (∀ v ∈ rows values, v.account = account → v.key = f.key → parsed fmt v = c) ∧
        ((∀ v ∈ rows values, ¬ (v.account = account ∧ v.key = f.key)) → F64.zero = c) := by
  have horders : (∀ order, f.get (accountValues fmt account values order now) = c) ↔
      ∀ vs, vs.Perm (rows values) → lastWrite (writes fmt account f) F64.zero vs = c := by
    constructor
    · intro h vs hperm
      obtain ⟨order, rfl⟩ := exists_yielded hperm
      rw [← get_accountValues fmt account values order now f]
      exact h order
    · intro h order
      rw [get_accountValues]
      exact h _ (yielded_perm order _)
  rw [horders, forall_perm_lastWrite_iff]
  simp [writes, and_imp]

/-- The row that a base value is read from. -/
theorem baseValue_of_row {fmt : TextFormats F Date} {base account : String}
    {msgs : List AccountValueMsg} {f : Field} {v : AccountValueMsg}
    (hrow : (cached msgs).lookup (cacheKey v) = some v) (haccount : v.account = account)
    (hkey : v.key = f.key) (hbase : v.currency = base) :
    baseValue fmt base account (cached msgs) f = parsed fmt v := by
  rw [baseValue, ← haccount, ← hkey, ← hbase]
  show Option.getD (Option.map _ ((cached msgs).lookup (cacheKey v))) _ = _
  rw [hrow]
  rfl

/-- Where no row of the account says anything of a field, its base value is zero. -/
theorem baseValue_of_no_row {fmt : TextFormats F Date} {base account : String}
    {msgs : List AccountValueMsg} {f : Field}
    (h : ∀ v ∈ rows (cached msgs), ¬ (v.account = account ∧ v.key = f.key)) :
    baseValue fmt base account (cached msgs) f = F64.zero := by
  unfold baseValue
  cases hrow : (cached msgs).lookup (f.key, base, account) with
  | none => rfl
  | some v =>
      have hkey := cacheKey_of_lookup hrow
      simp only [cacheKey, Prod.mk.injEq] at hkey
      refine absurd ⟨hkey.2.2, hkey.1⟩ (h v (mem_rows_cached.mpr ?_))
      rwa [cacheKey_of_lookup hrow]

/-- Without the foreign rows a field is its base value, in every order. -/
theorem get_accountValues_filter (fmt : TextFormats F Date) (base account : String)
    (msgs : List AccountValueMsg) (order : List Nat) (now : Nat) (f : Field) :
    f.get (accountValues fmt account (cached (msgs.filter (·.currency = base))) order now) =
      baseValue fmt base account (cached msgs) f := by
  have hbaseValue : baseValue fmt base account (cached (msgs.filter (·.currency = base))) f =
      baseValue fmt base account (cached msgs) f := by
    unfold baseValue
    rw [lookup_cached_filter, if_pos rfl]
  revert order
  rw [get_accountValues_iff, ← hbaseValue]
  constructor
  · intro v hv haccount hkey
    have hrow := mem_rows_cached.mp hv
    have hcurrency : v.currency = base := by
      rw [lookup_cached_filter] at hrow
      split at hrow
      · assumption
      · cases hrow
    exact (baseValue_of_row hrow haccount hkey hcurrency).symm
  · intro hnone
    exact (baseValue_of_no_row hnone).symm

/-- **Which row a snapshot shows.** The snapshot depends neither on the order of the cache
nor on the rows in foreign currencies just if every row of the account says what the base
row of its key says. -/
theorem account_snapshot_iff (fmt : TextFormats F Date) (base account : String) (now : Nat)
    (msgs : List AccountValueMsg) :
    WellDefined fmt base account now msgs ↔ RowsAgree fmt base account (cached msgs) := by
  have hfield (f : Field) :
      (∀ order, f.get (accountValues fmt account (cached msgs) order now) =
          baseValue fmt base account (cached msgs) f) ↔
        ∀ v ∈ rows (cached msgs), v.account = account → v.key = f.key →
          parsed fmt v = baseValue fmt base account (cached msgs) f := by
    rw [get_accountValues_iff]
    exact and_iff_left fun hnone => (baseValue_of_no_row hnone).symm
  constructor
  · intro h f
    refine (hfield f).mp fun order => ?_
    rw [(h order []).2]
    exact get_accountValues_filter fmt base account msgs [] now f
  · intro h
    have hget (order : List Nat) (f : Field) := (hfield f).mpr (h f) order
    refine fun order order' => ⟨snapshot_ext (by simp) fun f => ?_, snapshot_ext (by simp) fun f => ?_⟩
    · rw [hget order f, hget order' f]
    · rw [hget order f, get_accountValues_filter]

/-- A liquidation value in the base currency and one in another. -/
def twoCurrencies : List AccountValueMsg :=
  [⟨"NetLiquidation", "100", "USD", "DU1"⟩, ⟨"NetLiquidation", "7", "EUR", "DU1"⟩]

/-- The one that comes last in the order of the cache is shown. -/
theorem foreign_row_shown :
    ¬ WellDefined RestingSweep.plainFormats "USD" "DU1" 0 twoCurrencies := by
  intro h
  have hsame := congrArg AccountSnapshot.netLiquidation (h [0, 1] [1, 0]).1
  revert hsame
  decide +kernel

end Corsair.Ports.AccountSnapshot
