import ChangeFeed.Proofs.Capture.Drain
import ChangeFeed.Proofs.Capture.Write

namespace ChangeFeed

open Sql

namespace Capture

/-- The counter has room for so many rows. -/
def Room (db : Database) (n : Nat) : Prop :=
  ∀ v, db.counterValue = .integer v → v.toInt + n ≤ Int64.maxValue.toInt

theorem room_of_counterValue {db : Database} {v : Int64} {n : Nat} (h : db.counterValue = .integer v)
    (hn : v.toInt + n ≤ Int64.maxValue.toInt) : Room db n := by
  intro w hw
  rw [h] at hw
  cases hw
  exact hn

inductive Step (models : List LogModel) : Database → Database → Prop
  /-- The counter is kept if it is there. It is made anew only while no row waits. -/
  | install {db db' : Database} (strategy : InstallStrategy)
      (counter : (db.table? counterName).isSome = true ∨ ∀ m ∈ models, waiting db m = [])
      (run : SqlLog.install db models strategy = .ok db') : Step models db db'
  | uninstall {db db' : Database} (run : SqlLog.uninstall db models = .ok db') : Step models db db'
  | write {db db' : Database} {m : LogModel} {c : Change} {n k : Nat} (watched : m ∈ models)
      (admits : m.Admits db c n) (room : Room db n) (run : db.change c = .ok (db', k)) :
      Step models db db'
  | poll {db : Database} {κ : Type} (p : Poller κ) (drains : p.models = models) (x : κ) :
      Step models db ((p.poll SqlLog.store).outcome (⟨db, none⟩, x)).2.1.db

inductive Run (models : List LogModel) : Database → Database → Prop
  | refl (db : Database) : Run models db db
  | step {a b c : Database} (run : Run models a b) (last : Step models b c) : Run models a c

def Settled (models : List LogModel) (db : Database) : Prop :=
  Off models db ∨ ∃ v, On models models db v

variable {models : List LogModel} {m : LogModel} {db db' : Database} {c : Change} {n : Nat}

theorem Step.settled (hs : Suited models) (h : Step models db db') (hdb : Settled models db) :
    Settled models db' := by
  cases h with
  | install strategy hcounter hrun =>
      rcases hdb with hoff | ⟨v, hon⟩
      · by_cases hstrategy : strategy = .dontCreate
        · subst hstrategy
          cases hrun
          exact .inl hoff
        · refine .inr ⟨0, hoff.install hs (hcounter.resolve_left ?_) hstrategy hrun⟩
          simp [hoff.counter]
      · exact .inr ⟨v, hon.install hs hrun⟩
  | uninstall hrun =>
      rcases hdb with hoff | ⟨v, hon⟩
      · exact .inl (hoff.toLayout.uninstall hs hrun)
      · exact .inl (hon.toLayout.uninstall hs hrun)
  | write hm hc hroom hrun =>
      rcases hdb with hoff | ⟨v, hon⟩
      · obtain ⟨d, hd, hoff', -⟩ := hoff.change hs hm hc
        cases hd.symm.trans hrun
        exact .inl hoff'
      · obtain ⟨d, hd, hcaptured⟩ := hon.change hs hm hc (hroom v (Database.counterValue_eq hon.counter))
        cases hd.symm.trans hrun
        obtain ⟨w, hon', -⟩ := hcaptured.on
        exact .inr ⟨w, hon'⟩
  | poll p hp x =>
      rcases hdb with hoff | ⟨v, hon⟩
      · exact .inl (hoff.poll hs hp x)
      · exact .inr ⟨v, hon.poll hs hp x⟩

theorem Run.settled (hs : Suited models) (h : Run models db db') (hdb : Settled models db) :
    Settled models db' := by
  induction h with
  | refl => exact hdb
  | step _ last ih => exact last.settled hs ih

/-- After any run, a write that can be carried out by itself is carried out. What it captures, if capture
is installed, stands in the log table of its model after the rows that wait there, under sequence ids
that no waiting row of any log table has reached. -/
theorem Run.change_fresh (hs : Suited models) (hstart : Off models db) (hrun : Run models db db')
    (hm : m ∈ models) (hc : m.Admits db' c n) (hroom : Room db' n) :
    ∃ d ids, db'.change c = .ok (d, n) ∧ waiting d m = waiting db' m ++ ids ∧
      (ids.length = if db'.triggersOn c.table c.eventType = [] then 0 else n) ∧
      (∀ i ∈ ids, ∀ m' ∈ models, ∀ w ∈ waiting db' m', w < i) ∧
      ∀ m' ∈ models, m' ≠ m → waiting d m' = waiting db' m' := by
  rcases hrun.settled hs (.inl hstart) with hoff | ⟨v, hon⟩
  · obtain ⟨d, hd, -, hwaiting⟩ := hoff.change hs hm hc
    have hquiet : db'.triggersOn c.table c.eventType = [] := by
      rw [Database.triggersOn, hoff.triggers]
      rfl
    refine ⟨d, [], hd, (hwaiting m hm).trans (List.append_nil _).symm, ?_, fun i hi => ?_,
      fun m' hm' _ => hwaiting m' hm'⟩
    · rw [if_pos hquiet]
      rfl
    · cases hi
  · obtain ⟨d, hd, hcaptured⟩ := hon.change hs hm hc (hroom v (Database.counterValue_eq hon.counter))
    obtain ⟨ids, hids, hlength, hfresh⟩ := hcaptured.fresh
    refine ⟨d, ids, hd, hids, ?_, fun i hi m' hm' w hw => ?_, hcaptured.others⟩
    · rw [hon.triggersOn hs hm hc.table, if_neg (List.cons_ne_nil _ _), hlength]
    · exact Int64.lt_of_le_of_lt (hon.le_of_waiting hm' hw) (hfresh i hi)

end Capture

end ChangeFeed

namespace ChangeFeed.Sample

open Sql Capture

def placeUpdates : LogModel where
  logTable := "place_updates"
  watchedTable := "place"
  ids := [⟨"Place", ["place_id"], ["id"], .integer⟩]

def placeTable (places : List (Int64 × String)) : Table where
  name := "place"
  columns := [{ name := "id", affinity := .numeric, isRowId := true },
    { name := "name", affinity := .text }]
  rows := .ofList (places.map fun p => (p.1, [.integer p.1, .text p.2]))

def placeLogTable (added : List (Int64 × Int64)) : Table :=
  { logTable placeUpdates.logTable placeUpdates.tableColumns with
    rows := .ofList (added.map fun a => (a.1, [.integer a.1, .integer a.2, .integer 0])) }

def untouched (places : List (Int64 × String)) : Database where
  tables := .ofList [("place", placeTable places)]

def idle (places : List (Int64 × String)) (added : List (Int64 × Int64)) : Database where
  tables := .ofList [("place", placeTable places), ("place_updates", placeLogTable added)]

def capturing (counter : Int64) (places : List (Int64 × String)) (added : List (Int64 × Int64)) :
    Database where
  tables := .ofList [("place", placeTable places), ("place_updates", placeLogTable added),
    (counterName, counterAt counter)]
  triggers := [.delete, .update, .insert].map placeUpdates.trigger

def addPlace (id : Int64) (name : String) : Change :=
  .insert false "place" [("id", .integer id), ("name", .text name)]

def hogwarts : List (Int64 × String) := [(7, "Hogwarts")]

def updatesPoller : Poller Unit := ⟨[placeUpdates], [], {}⟩

theorem suited_places : Suited [placeUpdates] where
  valid := List.forall_mem_singleton.2 rfl
  watched := by decide +kernel
  logs := by decide +kernel
  apart := by decide +kernel
  counter := by decide +kernel

theorem table?_untouched (places : List (Int64 × String)) (name : String) :
    (untouched places).table? name =
      if sameName name "place" then some (placeTable places) else none := by
  have hfold : foldCase "place" = "place" := by decide +kernel
  have hset : untouched places = Database.setTable {} (placeTable places) := by
    rw [Database.setTable, show (placeTable places).name = "place" from rfl, hfold]
    rfl
  rw [hset, Database.table?_setTable]
  rfl

theorem off_untouched (places : List (Int64 × String)) : Off [placeUpdates] (untouched places) where
  keyed := by
    intro name t ht
    rw [table?_untouched] at ht
    split at ht
    next hname =>
      cases ht
      exact hname
    next => cases ht
  watched := by
    refine List.forall_mem_singleton.2 ⟨placeTable places, ?_, List.forall_mem_singleton.2 ?_⟩
    · rw [table?_untouched, if_pos (by decide +kernel)]
    · exact Table.hasColumn_of_mem (t := placeTable places) (List.mem_cons_self ..)
  made := by
    refine List.forall_mem_singleton.2 fun t ht => ?_
    rw [table?_untouched, if_neg (by decide +kernel)] at ht
    cases ht
  known := nofun
  nodup := .nil
  triggers := rfl
  counter := by rw [table?_untouched, if_neg (by decide +kernel)]

theorem nothing_waits : ∀ db ∈ [untouched [], idle hogwarts []], ∀ m ∈ [placeUpdates],
    waiting db m = [] := by
  decide +kernel

theorem counterValue_capturing : ∀ places ∈ [[], hogwarts],
    (capturing 0 places []).counterValue = .integer 0 := by
  decide +kernel

theorem room_capturing {places : List (Int64 × String)} (h : places ∈ [[], hogwarts]) :
    Room (capturing 0 places []) 1 :=
  room_of_counterValue (counterValue_capturing places h) (by decide)

theorem admits_places : placeUpdates.Admits (capturing 0 [] []) (addPlace 7 "Hogwarts") 1 ∧
    ∀ added ∈ [[], [(1, 7)]],
      placeUpdates.Admits (capturing 0 hogwarts added) (addPlace 8 "Durmstrang") 1 := by
  have hnames : (capturing 0 [] []).requireNames "" (addPlace 7 "Hogwarts") = .ok (placeTable []) ∧
      ∀ added ∈ [[], [(1, 7)]], (capturing 0 hogwarts added).requireNames "" (addPlace 8 "Durmstrang") =
        .ok (placeTable hogwarts) := by
    decide +kernel
  have hrows : (capturing 0 [] []).applyChange placeUpdates.requireLeading (addPlace 7 "Hogwarts") =
        .ok (capturing 0 hogwarts [], 1) ∧
      ∀ added ∈ [[], [(1, 7)]], (capturing 0 hogwarts added).applyChange placeUpdates.requireLeading
        (addPlace 8 "Durmstrang") = .ok (capturing 0 (hogwarts ++ [(8, "Durmstrang")]) added, 1) := by
    decide +kernel
  exact ⟨⟨sameName_self _, ⟨_, hnames.1⟩, ⟨_, hrows.1⟩⟩,
    fun added h => ⟨sameName_self _, ⟨_, hnames.2 added h⟩, ⟨_, hrows.2 added h⟩⟩⟩

theorem hogwarts_steps :
    SqlLog.install (untouched []) [placeUpdates] .create = .ok (capturing 0 [] []) ∧
      (capturing 0 [] []).change (addPlace 7 "Hogwarts") = .ok (capturing 1 hogwarts [(1, 7)], 1) ∧
      ((updatesPoller.poll SqlLog.store).outcome
        (⟨capturing 1 hogwarts [(1, 7)], none⟩, ())).2.1.db = capturing 1 hogwarts [] ∧
      (∀ added ∈ [[], [(1, 7)]],
        SqlLog.uninstall (capturing 1 hogwarts added) [placeUpdates] = .ok (idle hogwarts added) ∧
        SqlLog.install (idle hogwarts added) [placeUpdates] .create =
          .ok (capturing 0 hogwarts added)) ∧
      (capturing 0 hogwarts [(1, 7)]).change (addPlace 8 "Durmstrang") =
        .error (.unique "place_updates" "update_id") := by
  decide +kernel

theorem run_renewed : Run [placeUpdates] (untouched []) (capturing 0 hogwarts []) := by
  obtain ⟨hinstall, hchange, hpoll, hrenew, -⟩ := hogwarts_steps
  obtain ⟨huninstall, hinstall'⟩ := hrenew [] (List.mem_cons_self ..)
  have hinstalled : Run [placeUpdates] (untouched []) (capturing 0 [] []) :=
    .step (.refl _) (.install .create (.inr (nothing_waits _ (List.mem_cons_self ..))) hinstall)
  have hadded : Run [placeUpdates] (untouched []) (capturing 1 hogwarts [(1, 7)]) :=
    .step hinstalled (.write (List.mem_singleton_self _) admits_places.1
      (room_capturing (List.mem_cons_self ..)) hchange)
  have hdrained : Run [placeUpdates] (untouched []) (capturing 1 hogwarts []) :=
    .step hadded (hpoll ▸ .poll updatesPoller rfl ())
  have hremoved : Run [placeUpdates] (untouched []) (idle hogwarts []) :=
    .step hdrained (.uninstall huninstall)
  have hempty : ∀ m ∈ [placeUpdates], waiting (idle hogwarts []) m = [] :=
    nothing_waits _ (List.mem_cons_of_mem _ (List.mem_cons_self ..))
  exact .step hremoved (.install .create (.inr hempty) hinstall')

/-- The row of Hogwarts was taken before the counter was made anew, so Durmstrang is captured. -/
theorem change_renewed :
    Suited [placeUpdates] ∧ Off [placeUpdates] (untouched []) ∧
      Run [placeUpdates] (untouched []) (capturing 0 hogwarts []) ∧ placeUpdates ∈ [placeUpdates] ∧
      placeUpdates.Admits (capturing 0 hogwarts []) (addPlace 8 "Durmstrang") 1 ∧
      Room (capturing 0 hogwarts []) 1 ∧
      ∃ d ids, (capturing 0 hogwarts []).change (addPlace 8 "Durmstrang") = .ok (d, 1) ∧
        waiting d placeUpdates = waiting (capturing 0 hogwarts []) placeUpdates ++ ids ∧
        (ids.length = if (capturing 0 hogwarts []).triggersOn (addPlace 8 "Durmstrang").table
          (addPlace 8 "Durmstrang").eventType = [] then 0 else 1) ∧
        (∀ i ∈ ids, ∀ m' ∈ [placeUpdates], ∀ w ∈ waiting (capturing 0 hogwarts []) m', w < i) ∧
        ∀ m' ∈ [placeUpdates], m' ≠ placeUpdates →
          waiting d m' = waiting (capturing 0 hogwarts []) m' := by
  have hm : placeUpdates ∈ [placeUpdates] := List.mem_singleton_self _
  have hadmits := admits_places.2 [] (List.mem_cons_self ..)
  have hroom := @room_capturing hogwarts (List.mem_cons_of_mem _ (List.mem_cons_self ..))
  exact ⟨suited_places, off_untouched [], run_renewed, hm, hadmits, hroom,
    Run.change_fresh suited_places (off_untouched []) run_renewed hm hadmits hroom⟩

/-- A counter that is made anew beside a waiting row counts to the sequence id of that row again. -/
theorem change_collides :
    Suited [placeUpdates] ∧ Off [placeUpdates] (untouched []) ∧
      SqlLog.install (untouched []) [placeUpdates] .create = .ok (capturing 0 [] []) ∧
      placeUpdates.Admits (capturing 0 [] []) (addPlace 7 "Hogwarts") 1 ∧
      (capturing 0 [] []).change (addPlace 7 "Hogwarts") = .ok (capturing 1 hogwarts [(1, 7)], 1) ∧
      SqlLog.uninstall (capturing 1 hogwarts [(1, 7)]) [placeUpdates] =
        .ok (idle hogwarts [(1, 7)]) ∧
      SqlLog.install (idle hogwarts [(1, 7)]) [placeUpdates] .create =
        .ok (capturing 0 hogwarts [(1, 7)]) ∧
      placeUpdates.Admits (capturing 0 hogwarts [(1, 7)]) (addPlace 8 "Durmstrang") 1 ∧
      (capturing 0 hogwarts [(1, 7)]).change (addPlace 8 "Durmstrang") =
        .error (.unique "place_updates" "update_id") := by
  have hwaits : [(1, 7)] ∈ [[], [((1, 7) : Int64 × Int64)]] :=
    List.mem_cons_of_mem _ (List.mem_cons_self ..)
  obtain ⟨hinstall, hchange, -, hrenew, hcollides⟩ := hogwarts_steps
  exact ⟨suited_places, off_untouched [], hinstall, admits_places.1, hchange, (hrenew _ hwaits).1,
    (hrenew _ hwaits).2, admits_places.2 _ hwaits, hcollides⟩

end ChangeFeed.Sample
