import EBank.TransactionServiceImpl

namespace EBank.TransactionServiceImpl

open ExternalAPIClient

variable {σ A : Type} [Mul A]

section Replies
variable (replies : Option Currency → ℕ → Option (InlineResponse200 A))

def rateFor (seen : List (Option Currency)) (t : Transaction A) : Option (InlineResponse200 A) :=
  if t.currency ≠ some getTargetCurrency then
    Memo.firstReply (replies t.currency) (Memo.occurrences seen t.currency + 1)
  else none

def withRates : List (Option Currency) → List (Transaction A) →
    List (Transaction A × Option (InlineResponse200 A))
  | _, [] => []
  | seen, t :: ts => (t, rateFor replies seen t) :: withRates (seen ++ [t.currency]) ts

omit [Mul A] in
@[simp] theorem withRates_length (seen : List (Option Currency)) (ts : List (Transaction A)) :
    (withRates replies seen ts).length = ts.length := by
  induction ts generalizing seen with
  | nil => rfl
  | cons t ts ih => simp [withRates, ih]

omit [Mul A] in
theorem getElem?_withRates (seen : List (Option Currency)) (ts : List (Transaction A)) (i : ℕ)
    (hi : i < ts.length) :
    (withRates replies seen ts)[i]? =
      some (ts[i], rateFor replies (seen ++ (ts.take i).map Transaction.currency) ts[i]) := by
  induction ts generalizing seen i with
  | nil => simp at hi
  | cons t ts ih =>
    cases i with
    | zero => simp [withRates]
    | succ i => simpa [withRates] using ih (seen ++ [t.currency]) i (by simpa using hi)

omit [Mul A] in
theorem mem_withRates_iff (ts : List (Transaction A)) (p : Transaction A × Option (InlineResponse200 A)) :
    p ∈ withRates replies [] ts ↔
      ∃ i t, ts[i]? = some t ∧ p = (t, rateFor replies ((ts.take i).map Transaction.currency) t) := by
  rw [List.mem_iff_getElem?]
  constructor
  · rintro ⟨i, hp⟩
    have hi : i < ts.length := by simpa using (List.getElem?_eq_some_iff.mp hp).1
    rw [getElem?_withRates replies [] ts i hi, Option.some_inj] at hp
    exact ⟨i, ts[i], List.getElem?_eq_getElem hi, hp.symm⟩
  · rintro ⟨i, t, ht, rfl⟩
    obtain ⟨hi, rfl⟩ := List.getElem?_eq_some_iff.mp ht
    exact ⟨i, getElem?_withRates replies [] ts i hi⟩

omit [Mul A] in
theorem withRates_fst (seen : List (Option Currency)) (ts : List (Transaction A)) :
    (withRates replies seen ts).map Prod.fst = ts := by
  induction ts generalizing seen with
  | nil => rfl
  | cons t ts ih => simp [withRates, ih]

omit [Mul A] in
theorem withRates_const (rates : Option Currency → Option (InlineResponse200 A))
    (seen : List (Option Currency))
    (ts : List (Transaction A)) :
    withRates (fun c _ => rates c) seen ts =
      ts.map (fun t => (t, if t.currency ≠ some getTargetCurrency then rates t.currency else none)) := by
  induction ts generalizing seen with
  | nil => rfl
  | cons t ts ih => simp only [withRates, rateFor, Memo.firstReply_const, ih, List.map_cons]

end Replies

def exchangeAll : List (Transaction A × Option (InlineResponse200 A)) →
    List (Transaction A) × Option JavaException
  | [] => ([], none)
  | (t, rate) :: ps =>
    match exchange t rate with
    | (t', some e) => (t' :: ps.map Prod.fst, some e)
    | (t', none) => (t' :: (exchangeAll ps).1, (exchangeAll ps).2)

theorem exchangeAll_raised_iff (ps : List (Transaction A × Option (InlineResponse200 A))) :
    (exchangeAll ps).2 ≠ none ↔ ∃ p ∈ ps, (exchange p.1 p.2).2 ≠ none := by
  induction ps with
  | nil => simp [exchangeAll]
  | cons p ps ih =>
    obtain ⟨t, rate⟩ := p
    rcases h : exchange t rate with ⟨t', _ | e⟩
    · simpa [exchangeAll, h] using ih
    · simp [exchangeAll, h]

theorem exchangeAll_raised {ps : List (Transaction A × Option (InlineResponse200 A))} {e : JavaException}
    (h : (exchangeAll ps).2 = some e) : e = .nullPointer := by
  induction ps with
  | nil => simp [exchangeAll] at h
  | cons p ps ih =>
    obtain ⟨t, rate⟩ := p
    rcases hx : exchange t rate with ⟨t', _ | e'⟩
    · exact ih (by simpa [exchangeAll, hx] using h)
    · have he : e' = e := by simpa [exchangeAll, hx] using h
      exact he ▸ exchange_raised (congrArg Prod.snd hx)

theorem exchangeAll_done {ps : List (Transaction A × Option (InlineResponse200 A))}
    (h : (exchangeAll ps).2 = none) : (exchangeAll ps).1 = ps.map (fun p => (exchange p.1 p.2).1) := by
  induction ps with
  | nil => rfl
  | cons p ps ih =>
    obtain ⟨t, rate⟩ := p
    rcases hx : exchange t rate with ⟨t', _ | e⟩
    · have hrest := ih (by simpa [exchangeAll, hx] using h)
      simp [exchangeAll, hx, hrest]
    · simp [exchangeAll, hx] at h

section Plays
variable {client : ExternalAPIClient σ A} {replies : Option Currency → ℕ → Option (InlineResponse200 A)}
  {R : (Option Currency → ℕ) → σ → Prop}

theorem mapPage_plays (hplays : Memo.Plays client replies R) (ts : List (Transaction A))
    (seen : List (Option Currency)) (rates : ExchangeRates A) (s : σ)
    (h : Memo.Tracks replies R (seen.filter (· ≠ some getTargetCurrency)) rates s) :
    (mapPage client ts rates s).transactions = (exchangeAll (withRates replies seen ts)).1 ∧
      (mapPage client ts rates s).raised = (exchangeAll (withRates replies seen ts)).2 := by
  induction ts generalizing seen rates s with
  | nil => exact ⟨rfl, rfl⟩
  | cons t ts ih =>
    by_cases hc : t.currency = some getTargetCurrency
    · have hrate : rateFor replies seen t = none := by rw [rateFor, if_neg (not_not.mpr hc)]
      have htracks : Memo.Tracks replies R ((seen ++ [t.currency]).filter (· ≠ some getTargetCurrency))
          rates s := by simpa [List.filter_append, hc] using h
      obtain ⟨hts, hraised⟩ := ih (seen ++ [t.currency]) rates s htracks
      rw [mapPage_cons_of_done client (mapTransaction_of_target client hc rates s), withRates, hrate]
      exact ⟨by simp [exchangeAll, exchange, hts], by simp [exchangeAll, exchange, hraised]⟩
    · obtain ⟨rates', s', hlookup, htracks⟩ := Memo.computeIfAbsent_plays hplays h t.currency
      have hcount : Memo.occurrences (seen.filter (· ≠ some getTargetCurrency)) t.currency =
          Memo.occurrences seen t.currency := by
        apply Memo.occurrences_filter
        simpa using hc
      have hrate : rateFor replies seen t =
          Memo.firstReply (replies t.currency) (Memo.occurrences seen t.currency + 1) := by
        rw [rateFor, if_pos hc]
      have htracks' : Memo.Tracks replies R ((seen ++ [t.currency]).filter (· ≠ some getTargetCurrency))
          rates' s' := by simpa [List.filter_append, hc] using htracks
      rw [hcount, ← hrate] at hlookup
      have hmap := mapTransaction_of_lookup hc hlookup
      rw [withRates]
      rcases hx : exchange t (rateFor replies seen t) with ⟨t', _ | e⟩
      · rw [hx] at hmap
        obtain ⟨hts, hraised⟩ := ih (seen ++ [t.currency]) rates' s' htracks'
        rw [mapPage_cons_of_done client hmap]
        exact ⟨by simp [exchangeAll, hx, hts], by simp [exchangeAll, hx, hraised]⟩
      · rw [hx] at hmap
        rw [mapPage_cons_of_raised client hmap]
        exact ⟨by simp [exchangeAll, hx, withRates_fst], by simp [exchangeAll, hx]⟩

theorem mapPage_start (hplays : Memo.Plays client replies R) {s : σ} (hs : R (fun _ => 0) s)
    (ts : List (Transaction A)) :
    (mapPage client ts (fun _ => none) s).transactions = (exchangeAll (withRates replies [] ts)).1 ∧
      (mapPage client ts (fun _ => none) s).raised = (exchangeAll (withRates replies [] ts)).2 :=
  mapPage_plays hplays ts [] _ s (Memo.tracks_nil replies hs)

end Plays

def exchangeWith (rates : Option Currency → Option (InlineResponse200 A)) (t : Transaction A) :
    Transaction A :=
  (exchange t (if t.currency ≠ some getTargetCurrency then rates t.currency else none)).1

theorem mapPage_ofRates {rates : Option Currency → Option (InlineResponse200 A)} {ts : List (Transaction A)}
    (h : (mapPage (ofRates rates) ts (fun _ => none) ()).raised = none) :
    (mapPage (ofRates rates) ts (fun _ => none) ()).transactions = ts.map (exchangeWith rates) := by
  obtain ⟨hts, hraised⟩ := mapPage_start (ofRates_plays rates) trivial ts
  rw [hraised] at h
  rw [hts, exchangeAll_done h, withRates_const, List.map_map]
  rfl

section Replay
variable (rates : ExchangeRates A)

theorem mapPage_scripted_congr {replies replies' : Option Currency → ℕ → Option (InlineResponse200 A)}
    (ts : List (Transaction A)) {asked : Option Currency → ℕ}
    (h : ∀ k j, asked k ≤ j → replies k j = replies' k j) :
    mapPage (Memo.scripted replies) ts rates asked = mapPage (Memo.scripted replies') ts rates asked := by
  induction ts generalizing rates asked with
  | nil => rfl
  | cons t ts ih =>
    have hmap : mapTransaction (Memo.scripted replies) t rates asked =
        mapTransaction (Memo.scripted replies') t rates asked := by
      unfold mapTransaction
      rw [Memo.computeIfAbsent_scripted_congr h]
    have hle : asked ≤ (mapTransaction (Memo.scripted replies) t rates asked).2.2 := by
      have hlookup : asked ≤ (Memo.computeIfAbsent rates t.currency
          (Memo.scripted replies : ExternalAPIClient (Option Currency → ℕ) A) asked).2.2 :=
        Memo.computeIfAbsent_scripted_le replies rates t.currency asked
      rcases mapTransaction_cases (Memo.scripted replies) t rates asked with
        ⟨-, hm⟩ | ⟨-, rates', s', ⟨rate, hc, hm⟩ | ⟨e, hc, hm⟩⟩
      · rw [hm]
      · rw [hc] at hlookup
        rwa [hm]
      · rw [hc] at hlookup
        rwa [hm]
    rcases hm : mapTransaction (Memo.scripted replies) t rates asked with ⟨⟨t', _ | e⟩, rates', asked'⟩
    · rw [hm] at hle
      rw [mapPage_cons_of_done _ hm, mapPage_cons_of_done _ (hmap ▸ hm),
        ih rates' (fun k j hj => h k j ((hle k).trans hj))]
    · rw [mapPage_cons_of_raised _ hm, mapPage_cons_of_raised _ (hmap ▸ hm)]

theorem exists_scripted (client : ExternalAPIClient σ A) (hclient : ∀ c s, ∃ rate, (client c s).1 = .ok rate)
    (ts : List (Transaction A)) (s : σ) (asked : Option Currency → ℕ) :
    ∃ replies, (mapPage (Memo.scripted replies) ts rates asked).transactions =
      (mapPage client ts rates s).transactions ∧
      (mapPage (Memo.scripted replies) ts rates asked).raised = (mapPage client ts rates s).raised := by
  induction ts generalizing rates s asked with
  | nil => exact ⟨fun _ _ => none, rfl, rfl⟩
  | cons t ts ih =>
    by_cases hc : t.currency = some getTargetCurrency
    · obtain ⟨replies, hts, hraised⟩ := ih rates s asked
      refine ⟨replies, ?_⟩
      rw [mapPage_cons_of_done _ (mapTransaction_of_target client hc rates s),
        mapPage_cons_of_done _ (mapTransaction_of_target _ hc rates asked), hts, hraised]
      exact ⟨rfl, rfl⟩
    · obtain ⟨rate, rates', s', asked', hlookup, hreplay⟩ :=
        Memo.computeIfAbsent_replay hclient rates t.currency s asked
      have hmap := mapTransaction_of_lookup hc hlookup
      rcases hx : exchange t rate with ⟨t', _ | e⟩
      · obtain ⟨later, hts, hraised⟩ := ih rates' s' asked'
        obtain ⟨replies, hscript, hlater⟩ := hreplay later
        have hmap' := mapTransaction_of_lookup hc hscript
        rw [hx] at hmap hmap'
        refine ⟨replies, ?_⟩
        rw [mapPage_cons_of_done _ hmap, mapPage_cons_of_done _ hmap',
          mapPage_scripted_congr rates' ts hlater, hts, hraised]
        exact ⟨rfl, rfl⟩
      · obtain ⟨replies, hscript, -⟩ := hreplay (fun _ _ => none)
        have hmap' := mapTransaction_of_lookup hc hscript
        rw [hx] at hmap hmap'
        refine ⟨replies, ?_⟩
        rw [mapPage_cons_of_raised _ hmap, mapPage_cons_of_raised _ hmap']
        exact ⟨rfl, rfl⟩

theorem find_exists_scripted (repository : TransactionRepository A) (client : ExternalAPIClient σ A)
    (hclient : ∀ c s, ∃ rate, (client c s).1 = .ok rate) (s : σ) (accountId : Long) (date : LocalDate)
    (page size : ℤ) :
    ∃ replies, findForAccountInMonthPaginated repository client s accountId date page size =
      findForAccountInMonthPaginated repository (Memo.scripted replies) (fun _ => 0) accountId date page size := by
  unfold findForAccountInMonthPaginated
  cases PageRequest.of page size (.ascending "date") with
  | error e => exact ⟨fun _ _ => none, rfl⟩
  | ok pageable =>
    rw [ok_bind]
    obtain ⟨replies, hts, hraised⟩ := exists_scripted (fun _ => none) client hclient
      (repository date.firstDay date.lastDay accountId pageable).content s (fun _ => 0)
    refine ⟨replies, ?_⟩
    rw [ok_bind, convert, convert, hts, hraised]

end Replay

end EBank.TransactionServiceImpl
