import Allegiance.Proofs.ClassifyingFiles
import Allegiance.Proofs.Decoding
import Allegiance.Proofs.FirstDocument
import Allegiance.Proofs.Reload

namespace Allegiance

open Document (Flaw Node Reader Misread foldMembers Items)
open Json (IsOpen IsScalar WantsClosed)

theorem foldMembers_ne_ok {σ : Type} {step : σ → String → Node → Except Misread σ} {f : Flaw}
    {members : List (Node × Node)} {s s' : σ} : foldMembers step (some f) members s ≠ .ok s' := by
  induction members generalizing s with
  | nil => nofun
  | cons m members ih =>
    obtain ⟨name, value⟩ := m
    rw [foldMembers]
    intro h
    obtain ⟨text, -, h⟩ := Document.bind_eq_ok_iff.mp h
    obtain ⟨mid, -, h⟩ := Document.bind_eq_ok_iff.mp h
    exact ih h

theorem finish_ne_ok {items : List Node} {f : Flaw} {count : Nat} :
    Items.finish .json ⟨items, some f⟩ count ≠ .ok () := by
  unfold Items.finish
  dsimp only
  split <;> nofun

theorem MatchStats.read_wantsClosed : WantsClosed MatchStats.read where
  scalar n x hn h := by
    cases n with
    | moment | list | map => exact hn
    | _ => cases h
  isOpen n x hn h := by
    cases hn with
    | flaw f => cases h
    | map members f =>
      obtain ⟨s, h, -⟩ := Document.fill_eq_ok_iff.mp h
      exact foldMembers_ne_ok h
    | list items f =>
      rw [read, Document.readRecord] at h
      obtain ⟨matchId, -, h⟩ := Document.bind_eq_ok_iff.mp h
      obtain ⟨players, -, h⟩ := Document.bind_eq_ok_iff.mp h
      obtain ⟨⟨⟩, h, -⟩ := Document.bind_eq_ok_iff.mp h
      exact finish_ne_ok h

/-- A content is read as a match in a file of one document. -/
def ReadsAs (content : Bytes) (stats : MatchStats) : Prop :=
  ∃ path machine, FileFormat.ofPath path = .ok .document ∧ machine.files.read path = .ok content ∧
    ((readMatch path : StorageM (StateM Machine) MatchStats).run.run machine).1 = .ok stats

def Machine.withDocument (content : Bytes) : Machine :=
  { blank with files := blank.files.set ["match.json"] (some (.file content)) }

theorem Machine.read_withDocument (content : Bytes) :
    (withDocument content).files.read "/match.json" = .ok content := by
  have hfind : blank.files.find "/match.json" = .ok ["match.json"] := by decide +kernel
  have hnothing : blank.files.entry ["match.json"] ≠ some .directory := by decide
  have hfound := FileSystem.find_set hfind hnothing (some (.file content))
  simp [withDocument, FileSystem.read, hfound, bind, Except.bind]

/-- It does not matter where the file lies. -/
theorem readMatch_document {path : String} {machine : Machine} {content : Bytes}
    (hformat : FileFormat.ofPath path = .ok .document)
    (h : machine.files.read path = .ok content) {stats : MatchStats} :
    ((readMatch path : StorageM (StateM Machine) MatchStats).run.run machine).1 = .ok stats ↔
      Json.read MatchStats.read content = .ok stats := by
  rw [show ((readMatch path : StorageM (StateM Machine) MatchStats).run.run machine).1 =
    matchIn machine.files path from (readMatch_onlyLooks path).result machine,
    matchIn_document hformat h, Document.mapError_eq_ok_iff]

theorem readsAs_iff {content : Bytes} {stats : MatchStats} :
    ReadsAs content stats ↔ Json.read MatchStats.read content = .ok stats := by
  constructor
  · rintro ⟨path, machine, hformat, hread, h⟩
    exact (readMatch_document hformat hread).mp h
  · intro h
    have hformat : FileFormat.ofPath "/match.json" = .ok .document := by decide +kernel
    have hread := Machine.read_withDocument content
    exact ⟨_, _, hformat, hread, (readMatch_document hformat hread).mpr h⟩

namespace Http

/-- A request that posts JSON to be classified, no longer than what is read. -/
structure Request.PostsMatch (r : Request) : Prop where
  method : r.method = "POST"
  endpoint : Endpoint.ofPath? r.path = some .classify
  media : Server.saysJson r = true
  size : r.body.length ≤ bodyLimit

/-- A response with a classified match in it, which is read with the same in every field. -/
structure Response.HandsOver (r : Response) (result : ClassifiedMatch) : Prop
    extends r.Gives 200 result.toJson where
  read : ∃ back : ClassifiedMatch, back.Same result ∧
    Json.read ClassifiedMatch.read r.body = .ok back

namespace Server

theorem handsOver_share (config : Config) (result : ClassifiedMatch) :
    (share config (.json 200 result.toJson)).HandsOver result := by
  have hgives := gives_share_json config 200 result.toJson
  exact ⟨hgives, result.rereadAll, result.same_rereadAll, hgives.written ▸ result.read_compact⟩

theorem saysJson_of_header {r : Request} (h : r.header? "content-type" = some "application/json") :
    saysJson r = true := by
  rw [saysJson, h]
  decide +kernel

theorem refusal_status (cause : Document.Misread) : (refusal cause).status ≠ 200 := by
  cases cause <;> simp [refusal, Response.text]

theorem readBody_eq_ok_iff {r : Request} (h : r.PostsMatch) {stats : MatchStats} :
    readBody r = .ok stats ↔ ∃ front, front <+: r.body ∧ ReadsAs front stats := by
  simp only [readBody, h.media, Bool.not_true, Bool.false_eq_true, ↓reduceIte, h.size.not_gt,
    Document.mapError_eq_ok_iff, Json.readStart_eq_ok_iff MatchStats.read_wantsClosed, readsAs_iff]

theorem readBody_error {r : Request} (h : r.PostsMatch) {refused : Response}
    (hr : readBody r = .error refused) : refused.status ≠ 200 := by
  simp only [readBody, h.media, Bool.not_true, Bool.false_eq_true, ↓reduceIte, h.size.not_gt] at hr
  cases hread : Json.readStart MatchStats.read r.body with
  | ok stats =>
    rw [hread] at hr
    cases hr
  | error cause =>
    rw [hread] at hr
    cases hr
    exact refusal_status cause

end Server

namespace Site

theorem ask_posted (site : Site) {r : Request} (h : r.PostsMatch) :
    (site.ask r).1 = Server.share site.server.config
      (site.server.answerIn r site.machine.files site.machine.clock .classify).1 := by
  have hallowed : Endpoint.classify.allows r.method = true := by
    rw [h.method]
    rfl
  rw [site.ask_allowed h.endpoint hallowed]
  simp only [Server.sent, h.method, String.reduceEq, ↓reduceIte]

theorem ask_posted_ok (site : Site) {r : Request} (h : r.PostsMatch) {front : Bytes}
    {stats : MatchStats} (hfront : front <+: r.body) (hreads : ReadsAs front stats) :
    (site.ask r).1.HandsOver
      (site.server.classifier.classifyMatch site.machine.clock stats) := by
  have hbody := (Server.readBody_eq_ok_iff h).mpr ⟨front, hfront, hreads⟩
  rw [site.ask_posted h, Server.answerIn, hbody]
  exact Server.handsOver_share _ _

theorem ask_posted_status (site : Site) {r : Request} (h : r.PostsMatch) :
    (site.ask r).1.status = 200 ↔ ∃ front stats, front <+: r.body ∧ ReadsAs front stats := by
  constructor
  · intro hstatus
    rw [site.ask_posted h, Server.share_status, Server.answerIn] at hstatus
    cases hbody : Server.readBody r with
    | error refused =>
      rw [hbody] at hstatus
      exact absurd hstatus (Server.readBody_error h hbody)
    | ok stats =>
      obtain ⟨front, hfront, hreads⟩ := (Server.readBody_eq_ok_iff h).mp hbody
      exact ⟨front, stats, hfront, hreads⟩
  · rintro ⟨front, stats, hfront, hreads⟩
    exact (site.ask_posted_ok h hfront hreads).status

/-- A match that is posted is answered with success exactly if a front of the body is read as a
match in a file of one document; and the answer is the match labelled by the classifier that is
installed now. So, whenever the command has classified a file of one document with the content of
the body, a server with the classifier of the command answers what the command has handed over, as
of now. -/
theorem posted_as_filed (config : Config) (machine : Machine) (site : Site)
    (hstart : start config machine = .ok site) (incidents : List Incident) (r : Request)
    (hr : r.PostsMatch) :
    RunsOn config (site.source machine.files incidents) (site.run incidents).2 ∧
    (((site.run incidents).2.ask r).1.status = 200 ↔
      ∃ front stats, front <+: r.body ∧ ReadsAs front stats) ∧
    (∀ front stats, front <+: r.body → ReadsAs front stats →
      ((site.run incidents).2.ask r).1.HandsOver
        ((site.run incidents).2.server.classifier.classifyMatch
          (site.run incidents).2.machine.clock stats)) ∧
    (∀ words i input output taxonomy legacyZeroKills machine' printed notice after,
      Command.asked? words = some i →
      i.action = .classify input output taxonomy legacyZeroKills →
      FileFormat.ofPath input = .ok .document → machine'.files.read input = .ok r.body →
      (Command.run words : StateM Machine Command.Outcome).run machine' =
        (.done printed notice, after) →
      ((site.run incidents).2.ask r).1.status = 200 ∧
      ∃ config' t stats,
        Command.Prepared machine' i.config input output taxonomy config' t stats ∧
        ∃ result, (Classifier.mk t (Command.tuningFor config' legacyZeroKills)).classifyMatch
            machine'.clock stats = result ∧
          Command.Delivered input output result printed after.files ∧
          ((site.run incidents).2.server.classifier =
              ⟨t, Command.tuningFor config' legacyZeroKills⟩ →
            ((site.run incidents).2.ask r).1.HandsOver
              { result with classifiedAt := (site.run incidents).2.machine.clock })) := by
  have hnow := run_runsOn incidents (runsOn_of_start hstart)
  generalize (site.run incidents).2 = now at hnow ⊢
  refine ⟨hnow, now.ask_posted_status hr, fun front stats hfront hreads =>
    now.ask_posted_ok hr hfront hreads, ?_⟩
  intro words i input output taxonomy legacyZeroKills machine' printed notice after hasked haction
    hformat hread hrun
  obtain ⟨config', t, stats, hprepared, hdelivered⟩ :=
    Command.exists_prepared hasked haction hrun
  have hreads : ReadsAs r.body stats := ⟨input, machine', hformat, hread, hprepared.hasStats⟩
  have hposted := now.ask_posted_ok hr (List.prefix_refl _) hreads
  refine ⟨hposted.status, config', t, stats, hprepared, _, rfl, hdelivered, ?_⟩
  intro hclassifier
  rw [hclassifier] at hposted
  exact hposted

def onePlayer : Bytes := Utf8.encode "[null,[\x7b\"playerId\":\"7\",\"totalKills\":2\x7d]]"

def onePlayerPost : Request :=
  ⟨"POST", "/api/classify", [("content-type", "application/json")],
    onePlayer ++ Utf8.encode " and more"⟩

/-- What comes after the document does not count. -/
theorem posted_as_filed_and_more :
    ∃ site, start namedFile oneWeaponMachine = .ok site ∧ onePlayerPost.PostsMatch ∧
      (site.ask onePlayerPost).1.status = 200 := by
  obtain ⟨t, journal, -, hstart⟩ := exists_start_oneWeapon namedFile rfl
  have hpost : onePlayerPost.PostsMatch :=
    ⟨rfl, by decide +kernel, Server.saysJson_of_header (by decide +kernel), by decide +kernel⟩
  have hread : (Json.read MatchStats.read onePlayer).isOk = true := by decide +kernel
  obtain ⟨stats, hstats⟩ := exists_of_isOk hread
  obtain ⟨-, -, hposted, -⟩ := posted_as_filed _ _ _ hstart [] onePlayerPost hpost
  have hanswer := hposted onePlayer stats (List.prefix_append _ _) (readsAs_iff.mpr hstats)
  exact ⟨_, hstart, hpost, hanswer.status⟩

end Site

end Http

end Allegiance
