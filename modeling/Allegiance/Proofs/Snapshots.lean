import Allegiance.Proofs.Reload
import Mathlib.Data.List.Induction

namespace Allegiance.Http

inductive Flight
  | answering (r : Request) (c : Classifier)
  | reloading (r : Request) (t : Taxonomy)
  | over

structure Traffic where
  server : Server
  machine : Machine
  flights : List Flight

/-- What happens: a step of a request, a change of the files behind the back of the server, or time.
A request that was taken up has as its number how many were taken up before it. -/
inductive Move
  | takeUp (r : Request)
  | answer (number : Nat)
  | read (r : Request)
  | swap (number : Nat)
  | files (now : FileSystem)
  | clock (now : Instant)

def Flight.last? (number : Nat) : Flight → Option Move
  | .answering .. => some (.answer number)
  | .reloading .. => some (.swap number)
  | .over => none

structure Reply where
  request : Request
  response : Response

namespace Traffic

def ofSite (site : Site) : Traffic := ⟨site.server, site.machine, []⟩

/-- One move, and the answer that it gives. A move that cannot be made changes nothing. -/
def step (s : Traffic) : Move → Option Reply × Traffic
  | .takeUp r =>
    if r.IsReload then (none, s)
    else (none, { s with flights := s.flights ++ [.answering r s.server.classifier] })
  | .answer number =>
    match s.flights[number]? with
    | some (.answering r c) =>
      let (response, site) := Site.ask ⟨⟨s.server.config, c⟩, s.machine⟩ r
      (some ⟨r, response⟩,
        { s with machine := site.machine, flights := s.flights.set number .over })
    | _ => (none, s)
  | .read r =>
    if r.IsReload then
      let (result, machine) := (Server.readConfigured s.server.config :
        ExceptT Failure (StateM Machine) Taxonomy).run.run s.machine
      match result with
      | .error failure =>
        (some ⟨r, Server.share s.server.config failure.response⟩, { s with machine })
      | .ok t => (none, { s with machine, flights := s.flights ++ [.reloading r t] })
    else (none, s)
  | .swap number =>
    match s.flights[number]? with
    | some (.reloading r t) =>
      (some ⟨r, Server.share s.server.config (.json 200 (Server.taxonomyReport t))⟩,
        { s with server := s.server.install t, flights := s.flights.set number .over })
    | _ => (none, s)
  | .files now => (none, { s with machine := { s.machine with files := now } })
  | .clock now => (none, { s with machine := { s.machine with clock := now } })

def after (s : Traffic) (moves : List Move) : Traffic := moves.foldl (fun s m => (s.step m).2) s

def replies (s : Traffic) : List Move → List Reply
  | [] => []
  | m :: rest => (s.step m).1.toList ++ (s.step m).2.replies rest

@[simp] theorem after_nil (s : Traffic) : s.after [] = s := rfl

theorem after_append (s : Traffic) (moves later : List Move) :
    s.after (moves ++ later) = (s.after moves).after later := List.foldl_append

theorem after_concat (s : Traffic) (moves : List Move) (m : Move) :
    s.after (moves ++ [m]) = ((s.after moves).step m).2 := after_append s moves [m]

theorem after_cons (s : Traffic) (m : Move) (moves : List Move) :
    s.after (m :: moves) = (s.step m).2.after moves := rfl

def along {α : Type} (look : Traffic → Move → Option α) (s : Traffic) : List Move → List α
  | [] => []
  | m :: rest => (look s m).toList ++ along look (s.step m).2 rest

section Along

variable {α : Type} {look : Traffic → Move → Option α} {s : Traffic} {moves : List Move} {x : α}

theorem along_append (look : Traffic → Move → Option α) (s : Traffic) (moves later : List Move) :
    along look s (moves ++ later) = along look s moves ++ along look (s.after moves) later := by
  induction moves generalizing s with
  | nil => rfl
  | cons m rest ih => rw [List.cons_append, along, along, ih, after_cons, List.append_assoc]

theorem mem_along : x ∈ along look s moves ↔
    ∃ before m later, moves = before ++ m :: later ∧ look (s.after before) m = some x := by
  constructor
  · intro h
    induction moves generalizing s with
    | nil => cases h
    | cons m rest ih =>
      rw [along, List.mem_append] at h
      rcases h with h | h
      · exact ⟨[], m, rest, rfl, by simpa using h⟩
      · obtain ⟨before, m', later, rfl, hlook⟩ := ih h
        exact ⟨m :: before, m', later, rfl, hlook⟩
  · rintro ⟨before, m, later, rfl, hlook⟩
    simp [along_append, along, hlook]

end Along

theorem replies_eq_along (s : Traffic) (moves : List Move) :
    s.replies moves = along (fun s m => (s.step m).1) s moves := by
  induction moves generalizing s with
  | nil => rfl
  | cons m rest ih => rw [replies, along, ih]

theorem replies_append (s : Traffic) (moves later : List Move) :
    s.replies (moves ++ later) = s.replies moves ++ (s.after moves).replies later := by
  simp only [replies_eq_along, along_append]

theorem exists_of_mem_replies {s : Traffic} {moves : List Move} {reply : Reply}
    (h : reply ∈ s.replies moves) : ∃ before m rest, moves = before ++ m :: rest ∧
      ((s.after before).step m).1 = some reply := by
  rw [replies_eq_along] at h
  exact mem_along.mp h

theorem step_read (s : Traffic) {r : Request} {t : Taxonomy} (hr : r.IsReload)
    (hread : Server.configuredIn s.server.config s.machine.files = .ok t) :
    ∃ journal, s.step (.read r) = (none,
      { s with
        machine := { s.machine with journal }
        flights := s.flights ++ [.reloading r t] }) := by
  obtain ⟨journal, hrun⟩ := Server.readConfigured_onlyLooks s.server.config s.machine
  exact ⟨journal, by simp [step, hr, hrun, hread]⟩

/-- What a move does: the answer it gives, and what there is after it. -/
inductive Does (s : Traffic) : Move → Option Reply → Traffic → Prop
  | nothing (m : Move) : Does s m none s
  | takeUp {r : Request} (hr : ¬ r.IsReload) :
    Does s (.takeUp r) none { s with flights := s.flights ++ [.answering r s.server.classifier] }
  | answer {number : Nat} {r : Request} {c : Classifier}
    (hflight : s.flights[number]? = some (.answering r c)) :
    Does s (.answer number) (some ⟨r, (Site.ask ⟨⟨s.server.config, c⟩, s.machine⟩ r).1⟩)
      { s with
        machine := (Site.ask ⟨⟨s.server.config, c⟩, s.machine⟩ r).2.machine
        flights := s.flights.set number .over }
  | fail {r : Request} {failure : Failure} {journal : Array Event} (hr : r.IsReload)
    (hread : Server.configuredIn s.server.config s.machine.files = .error failure) :
    Does s (.read r) (some ⟨r, Server.share s.server.config failure.response⟩)
      { s with machine := { s.machine with journal } }
  | read {r : Request} {t : Taxonomy} {journal : Array Event} (hr : r.IsReload)
    (hread : Server.configuredIn s.server.config s.machine.files = .ok t) :
    Does s (.read r) none
      { s with
        machine := { s.machine with journal }
        flights := s.flights ++ [.reloading r t] }
  | swap {number : Nat} {r : Request} {t : Taxonomy}
    (hflight : s.flights[number]? = some (.reloading r t)) :
    Does s (.swap number)
      (some ⟨r, Server.share s.server.config (.json 200 (Server.taxonomyReport t))⟩)
      { s with server := s.server.install t, flights := s.flights.set number .over }
  | files (now : FileSystem) :
    Does s (.files now) none { s with machine := { s.machine with files := now } }
  | clock (now : Instant) :
    Does s (.clock now) none { s with machine := { s.machine with clock := now } }

theorem does_step (s : Traffic) (m : Move) : Does s m (s.step m).1 (s.step m).2 := by
  cases m with
  | takeUp r =>
    rw [step]
    split
    · exact .nothing _
    · exact .takeUp ‹_›
  | answer number =>
    rw [step]
    split
    · exact .answer ‹_›
    · exact .nothing _
  | read r =>
    by_cases hr : r.IsReload
    · obtain ⟨journal, hread⟩ := Server.readConfigured_onlyLooks s.server.config s.machine
      simp only [step, hr, ↓reduceIte, hread]
      cases hresult : Server.configuredIn s.server.config s.machine.files with
      | error failure => exact .fail hr hresult
      | ok t => exact .read hr hresult
    · rw [step, if_neg hr]
      exact .nothing _
  | swap number =>
    rw [step]
    split
    · exact .swap ‹_›
    · exact .nothing _
  | files now => exact .files now
  | clock now => exact .clock now

variable {s s' : Traffic} {m : Move} {reply : Option Reply}

theorem Does.config (h : Does s m reply s') : s'.server.config = s.server.config := by
  cases h <;> rfl

/-- Only the swap of a reload that has read a taxonomy changes the server. -/
theorem Does.server (h : Does s m reply s') : s'.server = s.server ∨
    ∃ (number : Nat) (r : Request) (t : Taxonomy),
      s.flights[number]? = some (.reloading r t) ∧ s'.server = s.server.install t := by
  cases h with
  | swap hflight => exact .inr ⟨_, _, _, hflight, rfl⟩
  | _ => exact .inl rfl

/-- An answer goes to a request under way, unless that is a reload. -/
theorem Does.answered {reply : Reply} (h : Does s m (some reply) s')
    (hr : ¬ reply.request.IsReload) :
    (∃ (number : Nat) (c : Classifier), m = .answer number ∧
      s.flights[number]? = some (.answering reply.request c) ∧
      reply.response = (Site.ask ⟨⟨s.server.config, c⟩, s.machine⟩ reply.request).1) ∨
    ∃ (number : Nat) (t : Taxonomy), s.flights[number]? = some (.reloading reply.request t) := by
  cases h with
  | answer hflight => exact .inl ⟨_, _, rfl, hflight, rfl⟩
  | fail hreload => exact absurd hreload hr
  | swap hflight => exact .inr ⟨_, _, hflight⟩

/-- How a request gets under way: with the classifier that is installed, or with the taxonomy that
the configured file holds. -/
def Begins (s : Traffic) : Move → Flight → Prop
  | .takeUp r, .answering r' c => r' = r ∧ ¬ r.IsReload ∧ c = s.server.classifier
  | .read r, .reloading r' t =>
    r' = r ∧ r.IsReload ∧ Server.configuredIn s.server.config s.machine.files = .ok t
  | _, _ => False

theorem Does.flight (h : Does s m reply s') {number : Nat} {f : Flight}
    (hf : s'.flights[number]? = some f) (hover : f ≠ .over) :
    s.flights[number]? = some f ∨ (s.flights.length = number ∧ s.Begins m f) := by
  have hset : ∀ k, (s.flights.set k .over)[number]? = some f → s.flights[number]? = some f := by
    intro k hk
    rw [List.getElem?_set] at hk
    split at hk
    · split at hk
      · cases hk
        exact absurd rfl hover
      · cases hk
    · exact hk
  have hconcat : ∀ g, (s.flights ++ [g])[number]? = some f →
      s.flights[number]? = some f ∨ (s.flights.length = number ∧ f = g) := by
    intro g hg
    rcases Nat.lt_trichotomy number s.flights.length with hlt | rfl | hgt
    · exact .inl (by rwa [List.getElem?_append_left hlt] at hg)
    · exact .inr ⟨rfl, by simpa using hg.symm⟩
    · rw [List.getElem?_eq_none (by simp; omega)] at hg
      cases hg
  cases h with
  | nothing | fail | files | clock => exact .inl hf
  | answer hflight => exact .inl (hset _ hf)
  | swap hflight => exact .inl (hset _ hf)
  | takeUp hr =>
    obtain hf | ⟨hnumber, rfl⟩ := hconcat _ hf
    · exact .inl hf
    · exact .inr ⟨hnumber, rfl, hr, rfl⟩
  | read hr hread =>
    obtain hf | ⟨hnumber, rfl⟩ := hconcat _ hf
    · exact .inl hf
    · exact .inr ⟨hnumber, rfl, hr, hread⟩

theorem Does.stays (h : Does s m reply s') {number : Nat} {f : Flight}
    (hf : s.flights[number]? = some f) (hm : f.last? number ≠ some m) :
    s'.flights[number]? = some f := by
  have hset : ∀ k, k ≠ number → (s.flights.set k .over)[number]? = some f := by
    intro k hk
    rw [List.getElem?_set_ne hk, hf]
  have hconcat : ∀ g, (s.flights ++ [g])[number]? = some f := by
    intro g
    rw [List.getElem?_append_left (List.getElem?_eq_some_iff.mp hf).1, hf]
  cases h with
  | nothing | fail | files | clock => exact hf
  | takeUp | read => exact hconcat _
  | answer hflight | swap hflight =>
    refine hset _ ?_
    rintro rfl
    cases hf.symm.trans hflight
    exact hm rfl

theorem after_config (s : Traffic) (moves : List Move) :
    (s.after moves).server.config = s.server.config := by
  induction moves generalizing s with
  | nil => rfl
  | cons m rest ih => rw [after_cons, ih, (does_step s m).config]

theorem stays_after {s : Traffic} {moves : List Move} {number : Nat} {f : Flight}
    (hf : s.flights[number]? = some f) (hmoves : ∀ m ∈ moves, f.last? number ≠ some m) :
    (s.after moves).flights[number]? = some f := by
  induction moves generalizing s with
  | nil => exact hf
  | cons m rest ih =>
    rw [List.forall_mem_cons] at hmoves
    exact ih ((does_step s m).stays hf hmoves.1) hmoves.2

/-- A request that was taken up is answered by the classifier that was installed then, whatever
happens in between. -/
theorem answer_of_takeUp (s : Traffic) {r : Request} (hr : ¬ r.IsReload) {between : List Move}
    (hbetween : .answer s.flights.length ∉ between) :
    ((s.after (.takeUp r :: between)).step (.answer s.flights.length)).1 =
      some ⟨r, (Site.ask ⟨⟨s.server.config, s.server.classifier⟩,
        (s.after (.takeUp r :: between)).machine⟩ r).1⟩ := by
  have hunder : (s.after (.takeUp r :: between)).flights[s.flights.length]? =
      some (.answering r s.server.classifier) := by
    rw [after_cons]
    apply stays_after
    · simp [step, hr]
    · rintro m hm ⟨⟩
      exact hbetween hm
  simp only [step, hunder, after_config]

/-- A reload that has read a taxonomy installs it, whatever happens in between. -/
theorem swap_of_read (s : Traffic) {r : Request} {t : Taxonomy} (hr : r.IsReload)
    (hread : Server.configuredIn s.server.config s.machine.files = .ok t) {between : List Move}
    (hbetween : .swap s.flights.length ∉ between) :
    ((s.after (.read r :: between)).step (.swap s.flights.length)).2.server.classifier =
      ⟨t, s.server.config.classifier⟩ := by
  have hunder : (s.after (.read r :: between)).flights[s.flights.length]? =
      some (.reloading r t) := by
    obtain ⟨_, hstep⟩ := step_read s hr hread
    rw [after_cons]
    apply stays_after
    · simp [hstep]
    · rintro m hm ⟨⟩
      exact hbetween hm
  simp only [step, hunder, Server.install, after_config]

section History

variable {site : Site} {moves : List Move}

/-- Whatever is under way has begun at some moment, when as many were taken up before it as its
number says. -/
theorem exists_begins {number : Nat} {f : Flight}
    (hf : ((ofSite site).after moves).flights[number]? = some f) (hover : f ≠ .over) :
    ∃ before m between, moves = before ++ m :: between ∧
      ((ofSite site).after before).flights.length = number ∧
      ((ofSite site).after before).Begins m f := by
  induction moves using List.reverseRecOn with
  | nil => simp [ofSite] at hf
  | append_singleton moves m ih =>
    rw [after_concat] at hf
    rcases (does_step _ m).flight hf hover with hf | ⟨hnumber, hbegins⟩
    · obtain ⟨before, m', between, rfl, hnumber, hbegins⟩ := ih hf
      exact ⟨before, m', between ++ [m], by simp, hnumber, hbegins⟩
    · exact ⟨moves, m, [], rfl, hnumber, hbegins⟩

/-- A classifier with a taxonomy that the configured file held at some moment. -/
def FromFile (site : Site) (moves : List Move) (c : Classifier) : Prop :=
  ∃ path before later t, site.server.config.taxonomyPath = some path ∧ moves = before ++ later ∧
    Taxonomy.FoundAt ((ofSite site).after before).machine.files (some path) t ∧
    c = ⟨t, site.server.config.classifier⟩

theorem FromFile.concat {c : Classifier} (h : FromFile site moves c) (m : Move) :
    FromFile site (moves ++ [m]) c := by
  obtain ⟨path, before, later, t, hpath, rfl, hfound, hc⟩ := h
  exact ⟨path, before, later ++ [m], t, hpath, by simp, hfound, hc⟩

theorem fromFile_of_reloading {number : Nat} {r : Request} {t : Taxonomy}
    (hf : ((ofSite site).after moves).flights[number]? = some (.reloading r t)) :
    FromFile site moves ⟨t, site.server.config.classifier⟩ := by
  obtain ⟨before, m, between, hmoves, -, hbegins⟩ := exists_begins hf nofun
  cases m with
  | read r' =>
    obtain ⟨-, -, hread⟩ := hbegins
    rw [after_config] at hread
    obtain ⟨path, hpath, hfile⟩ := Server.configuredIn_eq_ok.mp hread
    exact ⟨path, before, _, t, hpath, hmoves, Taxonomy.ofFileIn_eq_ok_iff.mp hfile, rfl⟩
  | _ => exact hbegins.elim

/-- The installed classifier is the one of the start, or has a taxonomy that the configured file
held at some moment. -/
theorem installed (site : Site) (moves : List Move) :
    ((ofSite site).after moves).server.classifier = site.server.classifier ∨
      FromFile site moves ((ofSite site).after moves).server.classifier := by
  induction moves using List.reverseRecOn with
  | nil => exact .inl rfl
  | append_singleton moves m ih =>
    rw [after_concat]
    rcases (does_step ((ofSite site).after moves) m).server with h | ⟨number, r, t, hf, h⟩
    · rw [h]
      exact ih.imp_right (fun h => h.concat m)
    · rw [h, Server.install, after_config]
      exact .inr ((fromFile_of_reloading hf).concat m)

/-- A request is answered from a classifier alone: a match has its labels and its version, and what
is told of the taxonomy or of a weapon is told of its taxonomy. -/
structure AnswersFrom (config : Config) (c : Classifier) (r : Request) (clock : Instant)
    (response : Response) : Prop where
  labels : ∀ stats, r.method = "POST" → Endpoint.ofPath? r.path = some .classify →
    Server.readBody r = .ok stats →
      response = Server.share config (.json 200 (c.classifyMatch clock stats).toJson)
  groups : Endpoint.taxonomy.allows r.method = true → Endpoint.ofPath? r.path = some .taxonomy →
    response = Server.sent config r (.json 200 (Server.taxonomyReport c.taxonomy))
  entry : ∀ spelling, (Endpoint.weapon spelling).allows r.method = true →
    Endpoint.ofPath? r.path = some (.weapon spelling) →
      response = Server.sent config r (Server.answerWeapon c spelling)

theorem answersFrom_ask (config : Config) (c : Classifier) (machine : Machine) (r : Request) :
    AnswersFrom config c r machine.clock (Site.ask ⟨⟨config, c⟩, machine⟩ r).1 where
  labels stats hmethod hendpoint hbody := by
    have hallowed : Endpoint.classify.allows r.method = true := by
      rw [hmethod]
      rfl
    rw [Site.ask_allowed _ hendpoint hallowed]
    simp only [Server.sent, hmethod, String.reduceEq, ↓reduceIte, Server.answerIn, hbody]
  groups hallowed hendpoint := by
    rw [Site.ask_allowed _ hendpoint hallowed]
    rfl
  entry spelling hallowed hendpoint := by
    rw [Site.ask_allowed _ hendpoint hallowed]
    rfl

/-- Whoever is answered, and did not ask for a reload, is answered by the classifier that was
installed when the request was taken up. -/
theorem answered_from_snapshot {reply : Reply} (h : reply ∈ (ofSite site).replies moves)
    (hr : ¬ reply.request.IsReload) :
    ∃ before between number later,
      moves = before ++ .takeUp reply.request :: (between ++ .answer number :: later) ∧
      ((ofSite site).after before).flights.length = number ∧
      reply.response = (Site.ask
        ⟨⟨site.server.config, ((ofSite site).after before).server.classifier⟩,
          ((ofSite site).after (before ++ .takeUp reply.request :: between)).machine⟩
        reply.request).1 := by
  obtain ⟨front, m, later, rfl, hreply⟩ := exists_of_mem_replies h
  have hdoes := does_step ((ofSite site).after front) m
  rw [hreply] at hdoes
  rcases hdoes.answered hr with ⟨number, c, rfl, hf, hresponse⟩ | ⟨number, t, hf⟩
  · obtain ⟨before, m, between, rfl, hnumber, hbegins⟩ := exists_begins hf nofun
    cases m with
    | takeUp r =>
      obtain ⟨rfl, -, rfl⟩ := hbegins
      rw [after_config] at hresponse
      exact ⟨before, between, number, later, by simp, hnumber, hresponse⟩
    | _ => exact hbegins.elim
  · obtain ⟨_, m, _, _, _, hbegins⟩ := exists_begins hf nofun
    cases m with
    | read r => exact absurd (hbegins.1 ▸ hbegins.2.1) hr
    | _ => exact hbegins.elim

end History

structure Agrees (a b : Traffic) : Prop where
  server : a.server = b.server
  files : a.machine.files = b.machine.files
  clock : a.machine.clock = b.machine.clock
  flights : a.flights = b.flights

theorem step_agrees {a b : Traffic} (h : Agrees a b) (m : Move) :
    (a.step m).1 = (b.step m).1 ∧ Agrees (a.step m).2 (b.step m).2 := by
  obtain ⟨server, machine, flights⟩ := a
  obtain ⟨server', machine', flights'⟩ := b
  obtain ⟨hserver, hfiles, hclock, hflights⟩ := h
  dsimp only at hserver hfiles hclock hflights
  subst hserver hflights
  cases m with
  | files now => exact ⟨rfl, rfl, rfl, hclock, rfl⟩
  | clock now => exact ⟨rfl, rfl, hfiles, rfl, rfl⟩
  | takeUp r =>
    rw [step, step]
    split
    · exact ⟨rfl, rfl, hfiles, hclock, rfl⟩
    · exact ⟨rfl, rfl, hfiles, hclock, rfl⟩
  | swap number =>
    simp only [step]
    split
    · exact ⟨rfl, rfl, hfiles, hclock, rfl⟩
    · exact ⟨rfl, rfl, hfiles, hclock, rfl⟩
  | answer number =>
    simp only [step]
    split
    · rename_i r c _
      -- Only an answer looks at the machine, and it looks at the files and the clock.
      have hsites : Site.Agrees ⟨⟨server.config, c⟩, machine⟩ ⟨⟨server.config, c⟩, machine'⟩ :=
        ⟨rfl, hfiles, hclock⟩
      obtain ⟨hanswer, -, hfiles', hclock'⟩ := Site.step_agrees hsites (.request r)
      have hresponse : (Site.ask ⟨⟨server.config, c⟩, machine⟩ r).1 =
          (Site.ask ⟨⟨server.config, c⟩, machine'⟩ r).1 := Option.some.inj hanswer
      exact ⟨by rw [hresponse], rfl, hfiles', hclock', rfl⟩
    · exact ⟨rfl, rfl, hfiles, hclock, rfl⟩
  | read r =>
    by_cases hr : r.IsReload
    · obtain ⟨_, ha⟩ := Server.readConfigured_onlyLooks server.config machine
      obtain ⟨_, hb⟩ := Server.readConfigured_onlyLooks server.config machine'
      simp only [step, hr, ↓reduceIte, ha, hb, hfiles]
      split
      · exact ⟨rfl, rfl, rfl, hclock, rfl⟩
      · exact ⟨rfl, rfl, rfl, hclock, rfl⟩
    · rw [step, step, if_neg hr, if_neg hr]
      exact ⟨rfl, rfl, hfiles, hclock, rfl⟩

theorem replies_agrees (moves : List Move) {a b : Traffic} (h : Agrees a b) :
    a.replies moves = b.replies moves := by
  induction moves generalizing a b with
  | nil => rfl
  | cons m rest ih =>
    obtain ⟨hreply, hagrees⟩ := step_agrees h m
    rw [replies, replies, hreply, ih hagrees]

/-- A reload that cannot read its file, or is refused its content, changes no later answer. -/
theorem replies_after_failed_read (s : Traffic) (failure : Failure)
    (h : ((Server.readConfigured s.server.config :
      ExceptT Failure (StateM Machine) Taxonomy).run.run s.machine).1 = .error failure)
    (r : Request) (later : List Move) :
    (s.step (.read r)).2.replies later = s.replies later := by
  apply replies_agrees
  rw [(Server.readConfigured_onlyLooks s.server.config).result s.machine] at h
  have hdoes := does_step s (.read r)
  generalize (s.step (.read r)).1 = reply at hdoes
  generalize (s.step (.read r)).2 = s' at hdoes ⊢
  cases hdoes with
  | nothing => exact ⟨rfl, rfl, rfl, rfl⟩
  | fail => exact ⟨rfl, rfl, rfl, rfl⟩
  | read hr hread => cases h.symm.trans hread

/-- A request with nothing in between is the request as the server answers it. -/
theorem answer_at_once (s : Traffic) {r : Request} (hr : ¬ r.IsReload) :
    s.replies [.takeUp r, .answer s.flights.length] =
      [⟨r, (Site.ask ⟨s.server, s.machine⟩ r).1⟩] ∧
    (s.after [.takeUp r, .answer s.flights.length]).server =
      (Site.ask ⟨s.server, s.machine⟩ r).2.server ∧
    (s.after [.takeUp r, .answer s.flights.length]).machine =
      (Site.ask ⟨s.server, s.machine⟩ r).2.machine := by
  obtain ⟨reply, hreply⟩ := Site.ask_of_not_reload s.server hr
  obtain ⟨journal, hask⟩ := hreply s.machine
  simp [replies, after, step, hr, hask]

/-- A reload with nothing in between is the reload as the server does it. -/
theorem reload_at_once (s : Traffic) {r : Request} (hr : r.IsReload) :
    s.replies [.read r, .swap s.flights.length] = [⟨r, (Site.ask ⟨s.server, s.machine⟩ r).1⟩] ∧
    (s.after [.read r, .swap s.flights.length]).server =
      (Site.ask ⟨s.server, s.machine⟩ r).2.server ∧
    (s.after [.read r, .swap s.flights.length]).machine.files =
      (Site.ask ⟨s.server, s.machine⟩ r).2.machine.files := by
  obtain ⟨_, hread⟩ := Server.readConfigured_onlyLooks s.server.config s.machine
  obtain ⟨_, hask⟩ := Site.ask_reload ⟨s.server, s.machine⟩ hr
  cases hresult : Server.configuredIn s.server.config s.machine.files with
  | error failure => simp [replies, after, step, hr, hread, hask, hresult, Server.reloaded]
  | ok t => simp [replies, after, step, hr, hread, hask, hresult, Server.reloaded]

/-- Let any number of requests and reloads be under way side by side while files and time change.
Whoever is answered, and did not ask for a reload, is answered from the one classifier that was
installed when the request was taken up, and no request is left without an answer, or a reload
without effect, by what happens in between. The installed classifier is always the one of the start,
or has a taxonomy that the configured file held at an earlier moment. And a reload that cannot read
its file, or is refused its content, changes no later answer. -/
theorem snapshots_isolated (config : Config) (machine : Machine) (site : Site)
    (hstart : Site.start config machine = .ok site) (moves : List Move) :
    (∀ reply ∈ (ofSite site).replies moves, ¬ reply.request.IsReload →
      ∃ before between number later,
        moves = before ++ .takeUp reply.request :: (between ++ .answer number :: later) ∧
        ((ofSite site).after before).flights.length = number ∧
        ∃ c now, c = ((ofSite site).after before).server.classifier ∧
          now = ((ofSite site).after (before ++ .takeUp reply.request :: between)).machine ∧
          reply.response = (Site.ask ⟨⟨config, c⟩, now⟩ reply.request).1 ∧
          AnswersFrom config c reply.request now.clock reply.response) ∧
    (∀ r between number, ¬ r.IsReload → ((ofSite site).after moves).flights.length = number →
      .answer number ∉ between →
      ((((ofSite site).after moves).after (.takeUp r :: between)).step (.answer number)).1 =
        some ⟨r, (Site.ask ⟨⟨config, ((ofSite site).after moves).server.classifier⟩,
          (((ofSite site).after moves).after (.takeUp r :: between)).machine⟩ r).1⟩) ∧
    (∀ r between number t, r.IsReload → ((ofSite site).after moves).flights.length = number →
      ((Server.readConfigured config : ExceptT Failure (StateM Machine)
        Taxonomy).run.run ((ofSite site).after moves).machine).1 = .ok t →
      .swap number ∉ between →
      ((((ofSite site).after moves).after (.read r :: between)).step
        (.swap number)).2.server.classifier = ⟨t, config.classifier⟩) ∧
    (((ofSite site).after moves).server.classifier = site.server.classifier ∨
      ∃ path before later t, config.taxonomyPath = some path ∧ moves = before ++ later ∧
        Taxonomy.FoundAt ((ofSite site).after before).machine.files (some path) t ∧
        ((ofSite site).after moves).server.classifier = ⟨t, config.classifier⟩) ∧
    (∀ r failure, ((Server.readConfigured config : ExceptT Failure (StateM Machine)
        Taxonomy).run.run ((ofSite site).after moves).machine).1 = .error failure →
      ∀ later, (((ofSite site).after moves).step (.read r)).2.replies later =
        ((ofSite site).after moves).replies later) := by
  have hconfig : site.server.config = config := by
    obtain ⟨t, -, hserver⟩ := Site.runsOn_of_start hstart
    rw [hserver]
  subst hconfig
  have hafter : ((ofSite site).after moves).server.config = site.server.config :=
    after_config _ moves
  refine ⟨?_, ?_, ?_, installed site moves, ?_⟩
  · intro reply hreply hr
    obtain ⟨before, between, number, later, hmoves, hnumber, hresponse⟩ :=
      answered_from_snapshot hreply hr
    refine ⟨before, between, number, later, hmoves, hnumber, _, _, rfl, rfl, hresponse, ?_⟩
    rw [hresponse]
    exact answersFrom_ask _ _ _ _
  · rintro r between number hr rfl hbetween
    rw [answer_of_takeUp _ hr hbetween, hafter]
  · rintro r between number t hr rfl hread hbetween
    rw [(Server.readConfigured_onlyLooks _).result] at hread
    rw [← hafter] at hread ⊢
    exact swap_of_read _ hr hread hbetween
  · intro r failure hfailure later
    exact replies_after_failed_read _ failure (by rw [hafter]; exact hfailure) r later

def taxonomyRequest : Request := ⟨"GET", "/api/taxonomy", [], []⟩

/-- The file is taken away before the answer, which still tells of what was installed. -/
theorem snapshots_isolated_taken_away :
    ∃ site, Site.start Site.namedFile Site.oneWeaponMachine = .ok site ∧
      ∃ reply ∈ (ofSite site).replies
          [.takeUp taxonomyRequest, .files (.emptyAt []), .answer 0],
        reply.response = Server.sent Site.namedFile taxonomyRequest
          (.json 200 (Server.taxonomyReport site.server.classifier.taxonomy)) := by
  obtain ⟨t, journal, -, hstart⟩ := Site.exists_start_oneWeapon Site.namedFile rfl
  have hr : ¬ taxonomyRequest.IsReload := by decide +kernel
  refine ⟨_, hstart, ?_⟩
  have h := (snapshots_isolated _ _ _ hstart
    [.takeUp taxonomyRequest, .files (.emptyAt []), .answer 0]).1
  simp only [replies, step, hr, ↓reduceIte, ofSite, List.nil_append, List.getElem?_cons_zero,
    Option.toList_some, Option.toList_none, List.mem_cons, List.not_mem_nil, or_false,
    forall_eq, exists_eq_left, List.append_nil] at h ⊢
  obtain ⟨before, _, _, _, hmoves, -, c, now, hc, -, -, hfrom⟩ := h not_false
  -- The request was taken up by the first move, so its classifier is the one of the start.
  rcases before with _ | ⟨_, _ | ⟨_, _ | ⟨_, rest⟩⟩⟩ <;> simp at hmoves
  rw [hc] at hfrom
  exact hfrom.groups (by decide +kernel) (by decide +kernel)

end Traffic

end Allegiance.Http
