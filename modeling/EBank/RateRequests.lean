import EBank.TransactionServiceImpl

namespace EBank.TransactionServiceImpl

open ExternalAPIClient Memo

variable {σ A : Type}

abbrev Requests (A : Type) :=
  List (Option Currency × Except JavaException (Option (InlineResponse200 A)))

def foreign (ts : List (Transaction A)) : List (Option Currency) :=
  (ts.map Transaction.currency).filter (· ≠ some getTargetCurrency)

theorem foreign_append_target (ts : List (Transaction A)) {t : Transaction A}
    (h : t.currency = some getTargetCurrency) : foreign (ts ++ [t]) = foreign ts := by
  simp [foreign, h]

theorem foreign_append (ts : List (Transaction A)) {t : Transaction A}
    (h : t.currency ≠ some getTargetCurrency) : foreign (ts ++ [t]) = foreign ts ++ [t.currency] := by
  simp [foreign, h]

theorem foreign_mono {ts us : List (Transaction A)} (h : ts <+: us) : foreign ts <+: foreign us :=
  (h.map Transaction.currency).filter _

variable [Mul A]

inductive Requested (ts : List (Transaction A)) (raised : Option JavaException) (log : Requests A) : Prop where
  | mapped {done : List (Transaction A)} {rates : ExchangeRates A} (part : done <+: ts)
      (all : raised = none → done = ts) (asked : Asked (foreign done) rates log) : Requested ts raised log
  | failed {done : List (Transaction A)} {t : Transaction A} {rates : ExchangeRates A} {earlier : Requests A}
      {e : JavaException} (part : done ++ [t] <+: ts) (due : t.currency ≠ some getTargetCurrency)
      (asked : Asked (foreign done) rates earlier) (missing : rates t.currency = none)
      (raises : raised = some e) (last : log = earlier ++ [(t.currency, .error e)]) : Requested ts raised log

theorem mapTransaction_of_error {client : ExternalAPIClient σ A} {t : Transaction A}
    (hc : t.currency ≠ some getTargetCurrency) {e : JavaException} {rates rates' : ExchangeRates A} {s s' : σ}
    (h : computeIfAbsent rates t.currency client s = (.error e, rates', s')) :
    mapTransaction client t rates s = ((t, some e), rates', s') := by
  rw [mapTransaction, if_pos hc, h]

theorem mapPage_requested (client : ExternalAPIClient σ A) (ts done : List (Transaction A))
    (rates : ExchangeRates A) (s : σ) (log : Requests A) (h : Asked (foreign done) rates log) :
    let mapped := mapPage (recorded client) ts rates (s, log)
    (mapped.transactions = (mapPage client ts rates s).transactions ∧
      mapped.raised = (mapPage client ts rates s).raised ∧
      mapped.client.1 = (mapPage client ts rates s).client) ∧
    Requested (done ++ ts) mapped.raised mapped.client.2 := by
  induction ts generalizing done rates s log with
  | nil =>
    refine ⟨⟨rfl, rfl, rfl⟩, .mapped (List.prefix_append _ _) (fun _ => (List.append_nil _).symm) h⟩
  | cons t ts ih =>
    have hnext : done ++ t :: ts = (done ++ [t]) ++ ts := by simp
    have hpart : done ++ [t] <+: done ++ t :: ts := ⟨ts, hnext.symm⟩
    rw [hnext] at hpart ⊢
    by_cases hc : t.currency = some getTargetCurrency
    · rw [mapPage_cons_of_done _ (mapTransaction_of_target (recorded client) hc rates (s, log)),
        mapPage_cons_of_done _ (mapTransaction_of_target client hc rates s)]
      obtain ⟨⟨htransactions, hsame⟩, hrequested⟩ :=
        ih (done ++ [t]) rates s log (by rwa [foreign_append_target done hc])
      exact ⟨⟨congrArg (t :: ·) htransactions, hsame⟩, hrequested⟩
    · rcases h.lookup client t.currency s with
        ⟨answer, rates', s', log', hrecorded, hplain, hasked⟩ | ⟨e, s', hrecorded, hplain, hmissing⟩
      · have hmap := mapTransaction_of_lookup hc hrecorded
        have hmap' := mapTransaction_of_lookup hc hplain
        rw [← foreign_append done hc] at hasked
        rcases hx : exchange t answer with ⟨t', _ | e⟩
        · rw [hx] at hmap hmap'
          rw [mapPage_cons_of_done _ hmap, mapPage_cons_of_done _ hmap']
          obtain ⟨⟨htransactions, hsame⟩, hrequested⟩ := ih (done ++ [t]) rates' s' log' hasked
          exact ⟨⟨congrArg (t' :: ·) htransactions, hsame⟩, hrequested⟩
        · rw [hx] at hmap hmap'
          rw [mapPage_cons_of_raised _ hmap, mapPage_cons_of_raised _ hmap']
          exact ⟨⟨rfl, rfl, rfl⟩, .mapped hpart (fun hnone => by cases hnone) hasked⟩
      · rw [mapPage_cons_of_raised _ (mapTransaction_of_error hc hrecorded),
          mapPage_cons_of_raised _ (mapTransaction_of_error hc hplain)]
        exact ⟨⟨rfl, rfl, rfl⟩, .failed hpart hc h hmissing rfl rfl⟩

section
variable {ts : List (Transaction A)} {raised : Option JavaException} {log : Requests A}

omit [Mul A] in
theorem Requested.order (h : Requested ts raised log) : (log.map Prod.fst).Sublist (foreign ts) := by
  cases h with
  | mapped part _ asked => exact asked.order.trans (foreign_mono part).sublist
  | @failed done t rates earlier e part due asked _ _ last =>
    have hsublist := asked.order.append (List.Sublist.refl [t.currency])
    rw [← foreign_append done due] at hsublist
    rw [last, List.map_append]
    exact hsublist.trans (foreign_mono part).sublist

/-- The answers about a currency: nothing any number of times, then a rate, an exception that ended
the page, or the end of the transactions in this currency. -/
inductive Ending (raised : Option JavaException) (log : Requests A) (c : Option Currency) (due : ℕ) : Prop where
  | unanswered {n : ℕ} (answers : answersTo log c = List.replicate n (.ok none)) (count : n ≤ due)
      (all : raised = none → n = due) : Ending raised log c due
  | rate {n : ℕ} {r : InlineResponse200 A} (answers : answersTo log c = List.replicate n (.ok none) ++ [.ok (some r)])
      (count : n + 1 ≤ due) : Ending raised log c due
  | exception {n : ℕ} {e : JavaException} (answers : answersTo log c = List.replicate n (.ok none) ++ [.error e])
      (count : n + 1 ≤ due) (raises : raised = some e) (last : log.getLast? = some (c, .error e)) :
      Ending raised log c due

omit [Mul A] in
theorem ending_of_asked {done : List (Transaction A)} {rates : ExchangeRates A} (part : done <+: ts)
    (h : Asked (foreign done) rates log) {c : Option Currency} {answers : Requests A}
    (hanswers : answersTo answers c = answersTo log c)
    (hall : raised = none → done = ts) : Ending raised answers c (occurrences (foreign ts) c) := by
  have hcount : occurrences (foreign done) c ≤ occurrences (foreign ts) c :=
    occurrences_mono (foreign_mono part).sublist c
  cases hc : rates c with
  | none =>
    refine .unanswered (hanswers.trans (h.unanswered c hc)) hcount ?_
    intro hraised
    rw [hall hraised]
  | some r =>
    obtain ⟨n, hn, hlast⟩ := h.answered c r hc
    exact .rate (hanswers.trans hlast) (by omega)

omit [Mul A] in
theorem Requested.ending (h : Requested ts raised log) (c : Option Currency) :
    Ending raised log c (occurrences (foreign ts) c) := by
  cases h with
  | mapped part all asked => exact ending_of_asked part asked rfl all
  | @failed done t rates earlier e part due asked missing raises last =>
    have hnot : raised = none → done = ts := by
      rw [raises]
      exact fun hnone => by cases hnone
    by_cases hc : c = t.currency
    · subst hc
      refine .exception (n := occurrences (foreign done) t.currency) (e := e) ?_ ?_ raises ?_
      · rw [last, answersTo_append_self, asked.unanswered _ missing]
      · rw [← occurrences_append_self, ← foreign_append done due]
        exact occurrences_mono (foreign_mono part).sublist t.currency
      · rw [last, List.getLast?_concat]
    · apply ending_of_asked ((List.prefix_append done [t]).trans part) asked _ hnot
      rw [last, answersTo_append_other earlier hc]

end

theorem rate_requests (client : ExternalAPIClient σ A) (transactionsPage : Page (Transaction A)) (s : σ) :
    let ts := transactionsPage.content
    let mapped := mapPage (recorded client) ts (fun _ => none) (s, [])
    convertWithClient (recorded client) (s, []) transactionsPage =
      (convert client s transactionsPage, mapped.client) ∧
    (mapped.transactions = (mapPage client ts (fun _ => none) s).transactions ∧
      mapped.raised = (mapPage client ts (fun _ => none) s).raised ∧
      mapped.client.1 = (mapPage client ts (fun _ => none) s).client) ∧
    (mapped.client.2.map Prod.fst).Sublist (foreign ts) ∧
    ∀ c, Ending mapped.raised mapped.client.2 c (occurrences (foreign ts) c) := by
  intro ts mapped
  obtain ⟨hsame, hrequested⟩ := mapPage_requested client ts [] (fun _ => none) s [] asked_nil
  refine ⟨?_, hsame, hrequested.order, hrequested.ending⟩
  have hconvert : convert (recorded client) (s, []) transactionsPage = convert client s transactionsPage := by
    unfold convert
    dsimp only
    rw [hsame.2.1, hsame.1]
  rw [convertWithClient_eq, hconvert]

end EBank.TransactionServiceImpl
