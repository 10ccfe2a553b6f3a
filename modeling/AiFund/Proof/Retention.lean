import AiFund.Library.Total
import AiFund.Proof.Legal
import AiFund.Scheduler.Jobs

/-!
# Retention

The job deletes idempotency keys by their expiry, which the API never lets come, and news articles by
their age, without a look at the events that refer to them.
-/

namespace AiFund

open UnitOfWork Rows

variable {env : Env} {fund : FundConfig} {db : Db} {s s' : Session Db}

/-- Some event refers to the article. -/
def Db.refersTo (db : Db) (articleId : Nat) : Prop :=
  ∃ event ∈ db.events, event.newsArticleId = some articleId

/-- `time` is further back than the configured days. -/
def olderThan (env : Env) (days : Int) (time : Time) : Prop := time < env.now - days * 86400

instance (env : Env) (days : Int) (time : Time) : Decidable (olderThan env days time) :=
  inferInstanceAs (Decidable (_ < _))

/-- What is to be kept is what was there but for aged-out rows that nothing refers to. -/
structure Retains (env : Env) (fund : FundConfig) (db after : Db) : Prop where
  news : ∀ article ∈ after.newsArticles,
    db.refersTo article.id ∨ ¬ olderThan env fund.newsDays article.createdAt
  keys : ∀ key ∈ after.idempotencyKeys, ¬ olderThan env fund.idempotencyDays key.createdAt
  keptNews : ∀ article ∈ db.newsArticles,
    db.refersTo article.id ∨ ¬ olderThan env fund.newsDays article.createdAt →
      article ∈ after.newsArticles
  keptKeys : ∀ key ∈ db.idempotencyKeys,
    ¬ olderThan env fund.idempotencyDays key.createdAt → key ∈ after.idempotencyKeys
  others : ∃ logs, after =
    { db with
      newsArticles := after.newsArticles
      idempotencyKeys := after.idempotencyKeys
      schedulerJobLogs := db.schedulerJobLogs ++ logs }

/-- A day count that reaches back to a time that a datetime can hold. -/
def InRange (env : Env) (days : Int) : Prop :=
  datetimeMin ≤ env.now - days * 86400 ∧ env.now - days * 86400 ≤ datetimeMax

instance (env : Env) (days : Int) : Decidable (InRange env days) :=
  inferInstanceAs (Decidable (_ ∧ _))

theorem daysBefore_eq_ok {days : Int} {time : Time} :
    daysBefore env.now days = .ok time ↔ InRange env days ∧ time = env.now - days * 86400 := by
  unfold daysBefore InRange
  simp only
  split
  · rename_i hrange
    rw [Except.ok.injEq]
    exact ⟨fun h => ⟨hrange, h.symm⟩, fun h => h.2.symm⟩
  · rename_i hrange
    exact ⟨nofun, fun h => absurd h.1 hrange⟩

/-- The database after both deletions. -/
def Db.swept (db : Db) (expired agedOut : Time) : Db :=
  { db with
    idempotencyKeys := db.idempotencyKeys.filter fun key => !decide (key.expiresAt < expired)
    newsArticles := db.newsArticles.filter fun article => !decide (article.createdAt < agedOut) }

/-! ## What may be deleted -/

theorem Db.legal_filterKeys (p : IdempotencyKey → Bool) (hdb : Schema.violation db = none) :
    Schema.violation { db with idempotencyKeys := db.idempotencyKeys.filter p } = none := by
  refine legal_of_rules hdb ?_
  have hruns : Db.isRun { db with idempotencyKeys := db.idempotencyKeys.filter p } = db.isRun := rfl
  have hhouses : Db.isHouse { db with idempotencyKeys := db.idempotencyKeys.filter p } =
      db.isHouse := rfl
  have hcoverages : Db.isCoverage { db with idempotencyKeys := db.idempotencyKeys.filter p } =
      db.isCoverage := rfl
  simp only [constraints, List.forall_mem_cons, hruns, hhouses, hcoverages, imp_self, true_and,
    decide_eq_true_eq]
  exact ⟨fun h => h.sublist (List.filter_sublist.map _), List.forall_mem_nil _⟩

/-- News articles may be deleted exactly if each one that an event refers to is kept. -/
theorem Db.legal_filterNews_iff (p : NewsArticle → Bool) (hdb : Schema.violation db = none) :
    Schema.violation { db with newsArticles := db.newsArticles.filter p } = none ↔
      ∀ event ∈ db.events, ∀ id, event.newsArticleId = some id →
        ∃ article ∈ db.newsArticles, p article = true ∧ article.id = id := by
  have hevents : (db.events.all fun event => event.newsArticleId.all fun id =>
      (db.newsArticles.filter p).any fun article => article.id = id) = true ↔
      ∀ event ∈ db.events, ∀ id, event.newsArticleId = some id →
        ∃ article ∈ db.newsArticles, p article = true ∧ article.id = id := by
    simp only [List.all_eq_true, Option.all_eq_true, List.any_eq_true, List.mem_filter,
      decide_eq_true_eq, and_assoc]
  rw [← hevents]
  constructor
  · intro h
    exact Db.violation_eq_none.1 h ("fk_events_news_article_id_news_articles",
      fun db => db.events.all fun event => event.newsArticleId.all fun id =>
        db.newsArticles.any fun article => article.id = id) (by simp [constraints])
  · intro h
    refine legal_of_rules hdb ?_
    have hruns : Db.isRun { db with newsArticles := db.newsArticles.filter p } = db.isRun := rfl
    have hhouses : Db.isHouse { db with newsArticles := db.newsArticles.filter p } =
        db.isHouse := rfl
    have hcoverages : Db.isCoverage { db with newsArticles := db.newsArticles.filter p } =
        db.isCoverage := rfl
    simp only [constraints, List.forall_mem_cons, hruns, hhouses, hcoverages, imp_self, true_and,
      decide_eq_true_eq]
    exact ⟨fun hids => hids.sublist (List.filter_sublist.map _), fun _ => h,
      List.forall_mem_nil _⟩

/-! ## What the job does -/

theorem of_returns_retention {n : Nat}
    (h : Returns (retention env fund true) (Session.clean db) n s') :
    ∃ expired agedOut logs, daysBefore env.now fund.idempotencyDays = .ok expired ∧
      daysBefore env.now fund.newsDays = .ok agedOut ∧
      Schema.violation (db.swept expired agedOut) = none ∧
      s'.loaded =
        { db.swept expired agedOut with schedulerJobLogs := db.schedulerJobLogs ++ logs } := by
  obtain ⟨expired, hexpired, h⟩ := returns_ofExcept_bind.1 h
  rw [returns_select_bind] at h
  obtain ⟨-, h⟩ := returns_execute_bind.1 h
  obtain ⟨agedOut, hagedOut, h⟩ := returns_ofExcept_bind.1 h
  rw [returns_select_bind] at h
  obtain ⟨hswept, h⟩ := returns_execute_bind.1 h
  obtain ⟨_, s₁, hlog, h⟩ := returns_bind.1 h
  obtain ⟨-, rfl⟩ := returns_pure.1 h
  obtain ⟨-, rfl⟩ := returns_flush.1 (returns_assign_bind.1 hlog)
  exact ⟨expired, agedOut, _, hexpired, hagedOut, hswept, rfl⟩

/-- No event refers to an article that is deleted. -/
structure Db.Spares (db : Db) (agedOut : Time) : Prop where
  legal : Schema.violation db = none
  referred : ∀ event ∈ db.events, ∀ id, event.newsArticleId = some id →
    ∃ article ∈ db.newsArticles, (!decide (article.createdAt < agedOut)) = true ∧ article.id = id

theorem completes_retention {expired agedOut : Time}
    (hexpired : daysBefore env.now fund.idempotencyDays = .ok expired)
    (hagedOut : daysBefore env.now fund.newsDays = .ok agedOut) :
    Completes (fun db : Db => db.Spares agedOut) (retention env fund true) := by
  have hlog (status : String) (detail : Option String) :
      Completes (fun db : Db => db.Spares agedOut) (logJob env "retention" status 0 detail) :=
    .bind (.assign fun db h => ⟨h.legal, h.referred⟩) fun _ => .flush fun db h => h.legal
  unfold retention
  simp only [Bool.not_true, Bool.false_eq_true, if_false, hexpired, hagedOut, ofExcept, pure_bind]
  refine .bind (.select _) fun keys => .bind (.execute (fun _ h => h.legal) fun db h => ?_) fun _ =>
    .bind (.select _) fun news => .bind (.execute (fun _ h => h.legal) fun db h => ?_) fun _ =>
      .bind (hlog _ _) fun _ => .pure _
  · exact ⟨Db.legal_filterKeys _ h.legal, h.referred⟩
  · refine ⟨(Db.legal_filterNews_iff _ h.legal).2 h.referred, fun event hevent id hid => ?_⟩
    obtain ⟨article, harticle, hyoung, hsame⟩ := h.referred event hevent id hid
    exact ⟨article, List.mem_filter.2 ⟨harticle, hyoung⟩, hyoung, hsame⟩

/-- No key that the API has stored expires before a cutoff. -/
theorem Db.swept_eq {expired agedOut : Time}
    (hkeys : ∀ key ∈ db.idempotencyKeys, key.expiresAt = datetimeMax)
    (hexpired : daysBefore env.now fund.idempotencyDays = .ok expired) :
    db.swept expired agedOut =
      { db with
        newsArticles := db.newsArticles.filter fun article =>
          !decide (article.createdAt < agedOut) } := by
  obtain ⟨⟨-, hmax⟩, rfl⟩ := daysBefore_eq_ok.1 hexpired
  have hall : db.idempotencyKeys.filter (fun key =>
      !decide (key.expiresAt < env.now - fund.idempotencyDays * 86400)) = db.idempotencyKeys := by
    refine List.filter_eq_self.2 fun key hkey => ?_
    rw [hkeys key hkey, Bool.not_eq_true', decide_eq_false_iff_not]
    exact not_lt.2 hmax
  unfold swept
  rw [hall]

theorem Db.eq_of_articleId {article article' : NewsArticle} (hdb : Schema.violation db = none)
    (h : article ∈ db.newsArticles) (h' : article' ∈ db.newsArticles) (hid : article.id = article'.id) :
    article = article' := by
  have hrule := Db.violation_eq_none.1 hdb ("pk_news_articles",
    fun db => (db.newsArticles.map (·.id)).Nodup) (by simp [constraints])
  exact List.inj_on_of_nodup_map (of_decide_eq_true hrule) h h' hid

/-- Retention does its work exactly if both cutoffs are datetimes, every article that an event refers
to is younger than the configured days, and every idempotency key is. -/
theorem retention_retains_iff (hdb : Schema.violation db = none)
    (hkeys : ∀ key ∈ db.idempotencyKeys, key.expiresAt = datetimeMax) :
    (∃ n, (commit (retention env fund true) db).result = .ok n ∧
        Retains env fund db (commit (retention env fund true) db).after) ↔
      InRange env fund.idempotencyDays ∧ InRange env fund.newsDays ∧
        (∀ event ∈ db.events, ∀ id, event.newsArticleId = some id →
          ∃ article ∈ db.newsArticles, ¬ olderThan env fund.newsDays article.createdAt ∧
            article.id = id) ∧
        ∀ key ∈ db.idempotencyKeys, ¬ olderThan env fund.idempotencyDays key.createdAt := by
  have hyoung (time : Time) : (!decide (time < env.now - fund.newsDays * 86400)) = true ↔
      ¬ olderThan env fund.newsDays time := by simp [olderThan]
  constructor
  · rintro ⟨n, hresult, hretains⟩
    obtain ⟨s, hreturns, -, hafter⟩ := commit_result hresult
    obtain ⟨expired, agedOut, logs, hexpired, hagedOut, hswept, hloaded⟩ :=
      of_returns_retention hreturns
    obtain ⟨hagedOutRange, rfl⟩ := daysBefore_eq_ok.1 hagedOut
    rw [Db.swept_eq hkeys hexpired] at hswept hloaded
    rw [hafter, hloaded] at hretains
    refine ⟨(daysBefore_eq_ok.1 hexpired).1, hagedOutRange, fun event hevent id hid => ?_,
      hretains.keys⟩
    obtain ⟨article, harticle, hkept, hsame⟩ :=
      (Db.legal_filterNews_iff _ hdb).1 hswept event hevent id hid
    exact ⟨article, harticle, (hyoung _).1 hkept, hsame⟩
  · rintro ⟨hexpiredRange, hagedOutRange, hreferred, hyoungKeys⟩
    have hspares : db.Spares (env.now - fund.newsDays * 86400) := by
      refine ⟨hdb, fun event hevent id hid => ?_⟩
      obtain ⟨article, harticle, hkept, hsame⟩ := hreferred event hevent id hid
      exact ⟨article, harticle, (hyoung _).2 hkept, hsame⟩
    obtain ⟨n, s, hreturns, -, hafter⟩ := completes_retention
      (daysBefore_eq_ok.2 ⟨hexpiredRange, rfl⟩) (daysBefore_eq_ok.2 ⟨hagedOutRange, rfl⟩)
      (Session.clean db) hspares hspares
    obtain ⟨expired, agedOut, logs, hexpired, hagedOut, -, hloaded⟩ :=
      of_returns_retention hreturns
    obtain rfl := (daysBefore_eq_ok.1 hagedOut).2
    rw [Db.swept_eq hkeys hexpired] at hloaded
    rw [commit_of_returns hreturns hafter.legal]
    refine ⟨n, rfl, ?_⟩
    change Retains env fund db s.loaded
    rw [hloaded]
    refine ⟨fun article harticle => ?_, hyoungKeys, fun article harticle hkept => ?_,
      fun key hkey _ => hkey, logs, rfl⟩
    · exact .inr ((hyoung _).1 (List.mem_filter.1 harticle).2)
    · refine List.mem_filter.2 ⟨harticle, (hyoung _).2 ?_⟩
      obtain ⟨event, hevent, hid⟩ | hkept := hkept
      · obtain ⟨article', harticle', hkept, hsame⟩ := hreferred event hevent _ hid
        rwa [Db.eq_of_articleId hdb harticle harticle' hsame.symm]
      · exact hkept

/-- A clipping of the time given that an event refers to, an old one that none does, and a key of the
30th of December 2026. -/
def Db.clippings (referred : Time) : Db where
  events := [{ newsArticleId := some 0 }]
  newsArticles := [⟨0, referred⟩, ⟨1, 1700000000⟩]
  idempotencyKeys := [{ key := "k", route := "run.cancel", actorId := "pm",
                        response := ⟨[], 200, "h"⟩, statusCode := 200, expiresAt := datetimeMax,
                        createdAt := 1798588800 }]

theorem retention_retains_clippings :
    ∃ n, (commit (retention (.quiet 1798675200) App.small.fund true)
        (.clippings 1798588800)).result = .ok n ∧
      Retains (.quiet 1798675200) App.small.fund (.clippings 1798588800)
        (commit (retention (.quiet 1798675200) App.small.fund true)
          (.clippings 1798588800)).after := by
  have hreferred : ∀ event ∈ (Db.clippings 1798588800).events, ∀ id,
      event.newsArticleId = some id → ∃ article ∈ (Db.clippings 1798588800).newsArticles,
        ¬ olderThan (.quiet 1798675200) App.small.fund.newsDays article.createdAt ∧
          article.id = id := by
    refine List.forall_mem_singleton.2 fun id hid => ?_
    cases hid
    exact ⟨_, List.mem_cons_self, by decide +kernel, rfl⟩
  have hkeys : ∀ key ∈ (Db.clippings 1798588800).idempotencyKeys, key.expiresAt = datetimeMax := by
    refine List.forall_mem_singleton.2 ?_
    rfl
  exact (retention_retains_iff (by decide +kernel) hkeys).2
    ⟨by decide +kernel, by decide +kernel, hreferred,
      List.forall_mem_singleton.2 (by decide +kernel)⟩

/-- An event refers to an old article: its deletion breaks the foreign key, and the job raises. -/
theorem not_retention_retains_referred :
    ¬ ∃ n, (commit (retention (.quiet 1798675200) App.small.fund true)
        (.clippings 1700000000)).result = .ok n ∧
      Retains (.quiet 1798675200) App.small.fund (.clippings 1700000000)
        (commit (retention (.quiet 1798675200) App.small.fund true)
          (.clippings 1700000000)).after := by
  rintro ⟨n, hresult, -⟩
  have hraised : (commit (retention (.quiet 1798675200) App.small.fund true)
      (.clippings 1700000000)).result =
        .error (.integrityError "fk_events_news_article_id_news_articles") := by decide +kernel
  rw [hraised] at hresult
  cases hresult

end AiFund
