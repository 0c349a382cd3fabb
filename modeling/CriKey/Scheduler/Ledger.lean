import CriKey.Scheduler.State

/-! The books of the scheduler on their own: one account a plugin, the scheduler-wide
totals, and the cancellation notices that were not collected yet. Every posting is made
twice, to an account and to a total; the invariant says that both sides agree. -/
namespace CriKey.Scheduler
open CriKey.Base CriKey.Core Table List Option Nat

structure Account where
  dispatched : Nat
  coalesced : Nat
  dropped : Nat
  rejected : Nat
  cancelled : Nat
  reported : List Generation

structure Totals where
  dispatched : Nat
  coalesced : Nat
  dropped : Nat
  rejectedPlugin : Nat
  rejectedGlobal : Nat
  cancelled : Nat
  droppedNotices : Nat

structure Ledger where
  accounts : Table PluginId Account
  totals : Totals
  notices : List (PluginId × Generation)
  capacity : Nat

inductive Posting where
  | dispatched
  | coalesced
  | dropped (amount : Nat)
  | rejectedPlugin
  | rejectedGlobal
  | cancelled (generation : Generation)

def Account.post (a : Account) : Posting → Account
  | .dispatched => { a with dispatched := satAdd a.dispatched 1 }
  | .coalesced => { a with coalesced := satAdd a.coalesced 1 }
  | .dropped amount => { a with dropped := satAdd a.dropped amount }
  | .rejectedPlugin | .rejectedGlobal => { a with rejected := satAdd a.rejected 1 }
  | .cancelled g =>
    { a with cancelled := satAdd a.cancelled 1, reported := a.reported ++ [g] }

namespace Ledger

/-- The totals and notices of a posting; the oldest notice goes when there is no room. -/
def postTotals (l : Ledger) (p : PluginId) : Posting → Totals × List (PluginId × Generation)
  | .dispatched => ({ l.totals with dispatched := satAdd l.totals.dispatched 1 }, l.notices)
  | .coalesced => ({ l.totals with coalesced := satAdd l.totals.coalesced 1 }, l.notices)
  | .dropped amount => ({ l.totals with dropped := satAdd l.totals.dropped amount }, l.notices)
  | .rejectedPlugin =>
    ({ l.totals with rejectedPlugin := satAdd l.totals.rejectedPlugin 1 }, l.notices)
  | .rejectedGlobal =>
    ({ l.totals with rejectedGlobal := satAdd l.totals.rejectedGlobal 1 }, l.notices)
  | .cancelled g =>
    let totals := { l.totals with cancelled := satAdd l.totals.cancelled 1 }
    if l.notices.length = l.capacity then
      ({ totals with droppedNotices := satAdd totals.droppedNotices 1 }, l.notices.tail ++ [(p, g)])
    else (totals, l.notices ++ [(p, g)])

def post (l : Ledger) (p : PluginId) (e : Posting) : Ledger where
  accounts := l.accounts.modify p (·.post e)
  totals := (l.postTotals p e).1
  notices := (l.postTotals p e).2
  capacity := l.capacity

def postAll (l : Ledger) (entries : List (PluginId × Posting)) : Ledger :=
  entries.foldl (fun l e => l.post e.1 e.2) l

/-- Both sides agree. `collected` are the notices handed out so far. -/
structure Squares (collected : List (PluginId × Generation)) (l : Ledger) : Prop where
  dispatched : l.totals.dispatched = min (l.accounts.sum (·.dispatched)) u64Max
  coalesced : l.totals.coalesced = min (l.accounts.sum (·.coalesced)) u64Max
  dropped : l.totals.dropped = min (l.accounts.sum (·.dropped)) u64Max
  cancelled : l.totals.cancelled = min (l.accounts.sum (·.cancelled)) u64Max
  rejected : l.totals.rejectedPlugin < u64Max → l.totals.rejectedGlobal < u64Max →
    (∀ p a, l.accounts.get? p = some a → a.rejected < u64Max) →
      l.totals.rejectedPlugin + l.totals.rejectedGlobal = l.accounts.sum (·.rejected)
  notices : l.totals.cancelled =
    min (collected.length + l.notices.length + l.totals.droppedNotices) u64Max
  room : 1 ≤ l.capacity
  notices_le : l.notices.length ≤ l.capacity
  reported : ∀ p a, l.accounts.get? p = some a →
    (((collected ++ l.notices).filter (·.1 = p)).map (·.2)).Sublist a.reported
  known : ∀ n ∈ collected ++ l.notices, n.1 ∈ l.accounts.keys

section Tally
variable {t : Table PluginId Account} {p : PluginId} {a : Account}

lemma tally_bump (w : Account → Nat) (f : Account → Account) {total n : Nat}
    (hp : t.get? p = some a) (hw : w (f a) = satAdd (w a) n)
    (h : total = min (t.sum w) u64Max) : satAdd total n = min ((t.modify p f).sum w) u64Max := by
  have hsum := sum_modify w f hp
  have hle := le_sum w hp
  unfold satAdd at *
  omega

lemma tally_same (w : Account → Nat) (f : Account → Account) (hp : t.get? p = some a)
    (hw : w (f a) = w a) : (t.modify p f).sum w = t.sum w := by
  have hsum := sum_modify w f hp
  omega

end Tally

variable {collected : List (PluginId × Generation)} {l : Ledger} {p : PluginId}

lemma rejected_below {f : Account → Account}
    (hf : ∀ a, (f a).rejected < u64Max → a.rejected < u64Max)
    (hall : ∀ q b, (l.accounts.modify p f).get? q = some b → b.rejected < u64Max) (q : PluginId)
    (b : Account) (hq : l.accounts.get? q = some b) : b.rejected < u64Max := by
  by_cases hpq : q = p
  · subst hpq
    exact hf b (hall q (f b) (by simp [hq]))
  · exact hall q b (by rw [get?_modify_ne _ _ hpq]; exact hq)

/-- Two totals that make up the rejections, as long as no counter is saturated. -/
def Reconciled (t : Table PluginId Account) (x y : Nat) : Prop :=
  x < u64Max → y < u64Max → (∀ p a, t.get? p = some a → a.rejected < u64Max) →
    x + y = t.sum (·.rejected)

variable {a : Account} {x y : Nat}

lemma rejected_bump (f : Account → Account) (hp : l.accounts.get? p = some a)
    (hf : ∀ a, (f a).rejected = satAdd a.rejected 1) (h : Reconciled l.accounts x y) :
    Reconciled (l.accounts.modify p f) (satAdd x 1) y := by
  intro hx hy hall
  have hsum := sum_modify (·.rejected) f hp
  have hnew := hall p (f a) (by simp [hp])
  have hold := rejected_below (fun b => by rw [hf, satAdd]; omega) hall
  rw [hf] at hsum hnew
  unfold satAdd at *
  have hbefore := h (by omega) hy hold
  omega

lemma get?_modify_cases {t : Table PluginId Account} {f : Account → Account} {q : PluginId}
    {b : Account} (h : (t.modify p f).get? q = some b) :
    (q = p ∧ ∃ a, t.get? p = some a ∧ b = f a) ∨ (q ≠ p ∧ t.get? q = some b) := by
  by_cases hq : q = p
  · subst hq
    rw [get?_modify_self, map_eq_some_iff] at h
    obtain ⟨a, ha, rfl⟩ := h
    exact .inl ⟨rfl, a, ha, rfl⟩
  · rw [get?_modify_ne _ _ hq] at h
    exact .inr ⟨hq, h⟩

lemma reported_kept (f : Account → Account) (hf : ∀ a, (f a).reported = a.reported)
    (h : l.Squares collected) (q : PluginId) (b : Account)
    (hq : (l.accounts.modify p f).get? q = some b) :
    (((collected ++ l.notices).filter (·.1 = q)).map (·.2)).Sublist b.reported := by
  cases get?_modify_cases hq with
  | inl hself =>
    obtain ⟨rfl, a, ha, rfl⟩ := hself
    rw [hf]
    exact h.reported q a ha
  | inr hother => exact h.reported q b hother.2

lemma rejected_kept (f : Account → Account) (hf : ∀ a, (f a).rejected = a.rejected)
    (hp : l.accounts.get? p = some a) (h : Reconciled l.accounts x y) :
    Reconciled (l.accounts.modify p f) x y := by
  intro hx hy hall
  rw [tally_same _ f hp (hf a)]
  exact h hx hy (rejected_below (fun b => (hf b).symm.trans_lt) hall)

lemma reported_more (g : Generation) (kept : List (PluginId × Generation))
    (hkept : kept.Sublist l.notices) (h : l.Squares collected) (q : PluginId) (b : Account)
    (hq : (l.accounts.modify p (·.post (.cancelled g))).get? q = some b) :
    (((collected ++ (kept ++ [(p, g)])).filter (·.1 = q)).map (·.2)).Sublist b.reported := by
  have hold : (((collected ++ kept).filter (·.1 = q)).map (·.2)).Sublist
      (((collected ++ l.notices).filter (·.1 = q)).map (·.2)) :=
    (((List.Sublist.refl _).append hkept).filter _).map _
  rw [← append_assoc, filter_append, map_append]
  cases get?_modify_cases hq with
  | inl hself =>
    obtain ⟨rfl, a, ha, rfl⟩ := hself
    have hone : ([(q, g)].filter (·.1 = q)).map (·.2) = [g] := by simp
    rw [hone]
    exact (hold.trans (h.reported q a ha)).append (.refl _)
  | inr hother =>
    have hnone : ([(p, g)].filter (·.1 = q)).map (·.2) = [] := by
      simp [Ne.symm hother.1]
    rw [hnone, append_nil]
    exact hold.trans (h.reported q b hother.2)

lemma keys_post (e : Posting) : (l.post p e).accounts.keys = l.accounts.keys :=
  keys_modify _ _ _

/-- A cancellation notice goes to the end of the list; a full list gives up its oldest one. -/
lemma postTotals_cancelled (h : l.Squares collected) (p : PluginId) (g : Generation) :
    ∃ kept droppedNotices, l.postTotals p (.cancelled g) =
        ({ l.totals with cancelled := satAdd l.totals.cancelled 1, droppedNotices },
          kept ++ [(p, g)]) ∧
      kept.Sublist l.notices ∧ satAdd l.totals.cancelled 1 =
        min (collected.length + (kept ++ [(p, g)]).length + droppedNotices) u64Max ∧
      (kept ++ [(p, g)]).length ≤ l.capacity := by
  have hle := h.notices_le
  have hroom := h.room
  by_cases hfull : l.notices.length = l.capacity
  · have hlen : (l.notices.tail ++ [(p, g)]).length = l.notices.length := by
      rw [length_append, length_tail, length_singleton]
      omega
    refine ⟨l.notices.tail, satAdd l.totals.droppedNotices 1, by simp [postTotals, hfull],
      tail_sublist _, ?_, hlen.trans_le hle⟩
    rw [hlen, h.notices, satAdd_min, min_add_satAdd]
  · have hlen : (l.notices ++ [(p, g)]).length = l.notices.length + 1 := by simp
    refine ⟨l.notices, l.totals.droppedNotices, by simp [postTotals, hfull], .refl _, ?_, by omega⟩
    rw [h.notices, satAdd_min]
    omega

lemma Squares.post (h : l.Squares collected) (hp : p ∈ l.accounts.keys) (e : Posting) :
    (l.post p e).Squares collected := by
  obtain ⟨a, ha⟩ := isSome_iff_exists.mp ((mem_keys_iff _ _).mp hp)
  have hknown : ∀ n ∈ collected ++ l.notices, n.1 ∈ (l.post p e).accounts.keys := by
    rw [keys_post]
    exact h.known
  have hsame : ∀ {total : Nat} {w : Account → Nat}, total = min (l.accounts.sum w) u64Max →
      w (a.post e) = w a → total = min ((l.post p e).accounts.sum w) u64Max :=
    fun htotal hw => htotal.trans (by rw [Ledger.post, tally_same _ _ ha hw])
  have hrejected := fun hf => rejected_kept (·.post e) hf ha h.rejected
  have hreported := fun hf => reported_kept (p := p) (·.post e) hf h
  cases e with
  | dispatched =>
    exact ⟨tally_bump (·.dispatched) (·.post .dispatched) ha rfl h.dispatched,
      hsame h.coalesced rfl, hsame h.dropped rfl, hsame h.cancelled rfl,
      hrejected fun _ => rfl, h.notices, h.room, h.notices_le, hreported fun _ => rfl, hknown⟩
  | coalesced =>
    exact ⟨hsame h.dispatched rfl, tally_bump (·.coalesced) (·.post .coalesced) ha rfl h.coalesced,
      hsame h.dropped rfl, hsame h.cancelled rfl,
      hrejected fun _ => rfl, h.notices, h.room, h.notices_le, hreported fun _ => rfl, hknown⟩
  | dropped amount =>
    exact ⟨hsame h.dispatched rfl, hsame h.coalesced rfl,
      tally_bump (·.dropped) (·.post (.dropped amount)) ha rfl h.dropped, hsame h.cancelled rfl,
      hrejected fun _ => rfl, h.notices, h.room, h.notices_le, hreported fun _ => rfl, hknown⟩
  | rejectedPlugin =>
    exact ⟨hsame h.dispatched rfl, hsame h.coalesced rfl, hsame h.dropped rfl,
      hsame h.cancelled rfl, rejected_bump (·.post .rejectedPlugin) ha (fun _ => rfl) h.rejected,
      h.notices, h.room, h.notices_le, hreported fun _ => rfl, hknown⟩
  | rejectedGlobal =>
    refine ⟨hsame h.dispatched rfl, hsame h.coalesced rfl, hsame h.dropped rfl,
      hsame h.cancelled rfl, ?_, h.notices, h.room, h.notices_le, hreported fun _ => rfl, hknown⟩
    intro hplugin hglobal hall
    have hswap := rejected_bump (·.post .rejectedGlobal) ha (fun _ => rfl)
      (fun hx hy hb => (add_comm _ _).trans (h.rejected hy hx hb)) hglobal hplugin hall
    exact (add_comm _ _).trans hswap
  | cancelled g =>
    have hcancelled := tally_bump (·.cancelled) (·.post (.cancelled g)) ha rfl h.cancelled
    obtain ⟨kept, droppedNotices, htotals, hkept, hcount, hlen⟩ := postTotals_cancelled h p g
    have hnames : ∀ n ∈ collected ++ (kept ++ [(p, g)]),
        n.1 ∈ (l.post p (.cancelled g)).accounts.keys := by
      intro n hn
      simp only [mem_append, mem_singleton] at hn
      rcases hn with hn | hn | rfl
      · exact hknown n (mem_append_left _ hn)
      · exact hknown n (mem_append_right _ (hkept.subset hn))
      · rw [keys_post]
        exact hp
    simp only [Ledger.post, htotals] at hsame hnames ⊢
    exact ⟨hsame h.dispatched rfl, hsame h.coalesced rfl, hsame h.dropped rfl, hcancelled,
      hrejected fun _ => rfl, hcount, h.room, hlen, reported_more g _ hkept h, hnames⟩

lemma keys_postAll (entries : List (PluginId × Posting)) (l : Ledger) :
    (l.postAll entries).accounts.keys = l.accounts.keys := by
  induction entries generalizing l with
  | nil => rfl
  | cons e entries ih => exact (ih _).trans (keys_post e.2)

lemma Squares.postAll {entries : List (PluginId × Posting)} (h : l.Squares collected)
    (hknown : ∀ e ∈ entries, e.1 ∈ l.accounts.keys) : (l.postAll entries).Squares collected := by
  induction entries generalizing l with
  | nil => exact h
  | cons e entries ih =>
    apply ih (h.post (hknown e mem_cons_self) e.2)
    intro x hx
    rw [keys_post]
    exact hknown x (mem_cons_of_mem _ hx)

lemma Squares.blank {totals : Totals} {capacity : Nat} (hroom : 1 ≤ capacity)
    (htotals : totals = ⟨0, 0, 0, 0, 0, 0, 0⟩) :
    Squares [] ⟨Table.empty, totals, [], capacity⟩ := by
  subst htotals
  refine ⟨rfl, rfl, rfl, rfl, fun _ _ _ => rfl, rfl, hroom, zero_le _, ?_, ?_⟩ <;> simp

variable (h : l.Squares collected)
include h

lemma Squares.opened (hp : p ∉ l.accounts.keys) :
    Squares collected { l with accounts := l.accounts.insert p ⟨0, 0, 0, 0, 0, []⟩ } := by
  have hnone := (get?_eq_none_iff _ _).mpr hp
  have hsum : ∀ w : Account → Nat, w ⟨0, 0, 0, 0, 0, []⟩ = 0 →
      l.accounts.sum w = (l.accounts.insert p ⟨0, 0, 0, 0, 0, []⟩).sum w := by
    intro w hw
    rw [sum_insert_of_none w _ hnone, hw, add_zero]
  have hnew : ∀ q, q ∈ l.accounts.keys →
      (l.accounts.insert p ⟨0, 0, 0, 0, 0, []⟩).get? q = l.accounts.get? q := by
    intro q hq
    rw [get?_insert, if_neg fun he : q = p => hp (he ▸ hq)]
  refine ⟨hsum (·.dispatched) rfl ▸ h.dispatched, hsum (·.coalesced) rfl ▸ h.coalesced,
    hsum (·.dropped) rfl ▸ h.dropped, hsum (·.cancelled) rfl ▸ h.cancelled, ?_, h.notices,
    h.room, h.notices_le, ?_, ?_⟩
  · intro hplugin hglobal hall
    refine (h.rejected hplugin hglobal ?_).trans (hsum (·.rejected) rfl)
    intro q a hq
    exact hall q a ((hnew q (mem_keys_of_get? hq)).trans hq)
  · intro q a hq
    simp only [get?_insert] at hq
    split at hq
    · rename_i hqp
      -- nothing was ever reported for the new plugin
      have hnil : (collected ++ l.notices).filter (·.1 = q) = [] := by
        rw [filter_eq_nil_iff]
        intro n hn he
        exact hp (hqp ▸ of_decide_eq_true he ▸ h.known n hn)
      rw [hnil]
      exact nil_sublist _
    · exact h.reported q a hq
  · intro n hn
    have hmem := h.known n hn
    rw [mem_keys_iff] at hmem ⊢
    rw [hnew _ (h.known n hn)]
    exact hmem

lemma Squares.collect : Squares (collected ++ l.notices) { l with notices := [] } := by
  refine ⟨h.dispatched, h.coalesced, h.dropped, h.cancelled, h.rejected, ?_, h.room,
    zero_le _, ?_, ?_⟩
  · rw [h.notices, length_append, length_nil, add_zero]
  · simpa using h.reported
  · simpa using h.known

lemma Squares.notices_nodup (hreported : ∀ p a, l.accounts.get? p = some a → a.reported.Nodup) :
    (collected ++ l.notices).Nodup := by
  have hper : ∀ p, ((collected ++ l.notices).filter (·.1 = p)).Nodup := by
    intro p
    cases hp : l.accounts.get? p with
    | none =>
      have hnil : (collected ++ l.notices).filter (·.1 = p) = [] := by
        rw [filter_eq_nil_iff]
        intro n hn he
        exact (get?_eq_none_iff _ _).mp hp (of_decide_eq_true he ▸ h.known n hn)
      rw [hnil]
      exact nodup_nil
    | some a => exact ((hreported p a hp).sublist (h.reported p a hp)).of_map
  rw [nodup_iff_count_le_one]
  intro n
  have hcount := nodup_iff_count_le_one.mp (hper n.1) n
  rwa [count_filter (by simp)] at hcount

end Ledger
end CriKey.Scheduler
