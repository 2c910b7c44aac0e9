import Mathlib.Data.List.TakeWhile
import Allegiance.Proofs.Layouts
import Allegiance.Proofs.PercentCoding
import Allegiance.Proofs.RelativePaths
import Allegiance.Proofs.Reload
import Allegiance.Proofs.TableContents

namespace Allegiance

theorem Text.ne_empty_of_not_isBlank {s : String} (h : isBlank s = false) : s ≠ "" := by
  rintro rfl
  cases h

theorem Path.pieces_of_no_slash {cs : List Char} (h : ∀ c ∈ cs, c ≠ '/') : pieces cs = [cs] := by
  induction cs with
  | nil => rfl
  | cons c cs ih =>
    have hrest := ih (fun d hd => h d (List.mem_cons_of_mem c hd))
    rw [pieces, if_neg (h c List.mem_cons_self), hrest]

theorem Taxonomy.exists_ofGroups_of_foundAt {files : FileSystem} {path : Option String}
    {t : Taxonomy} (h : FoundAt files path t) : ∃ version groups, ofGroups version groups = .ok t := by
  cases path with
  | none => exact ⟨_, _, h⟩
  | some path =>
    obtain ⟨b, text, -, -, hread⟩ := h
    rw [ofToml] at hread
    split at hread
    · cases hread
    · rename_i file _
      refine ⟨file.version, file.groups, ?_⟩
      cases hmade : ofGroups file.version file.groups with
      | error flaw => simp [hmade, Except.mapError] at hread
      | ok t' => simpa [hmade, Except.mapError] using hread

namespace Http

namespace Endpoint

def weaponPath (w : String) : String :=
  "/api/taxonomy/weapons/" ++ Percent.spell (Utf8.encode w)

/-- Once it is percent encoded a name is one piece of the path, whatever is in it. -/
theorem toList_weaponPath (w : String) :
    (weaponPath w).toList =
      '/' :: ("api/taxonomy/weapons".toList ++ '/' :: (Percent.spell (Utf8.encode w)).toList) := by
  have hfront : "/api/taxonomy/weapons/".toList =
      '/' :: ("api/taxonomy/weapons".toList ++ ['/']) := by
    decide
  unfold weaponPath
  rw [String.toList_append, hfront, List.cons_append, List.append_assoc, List.singleton_append]

theorem decodeWeapon?_spell (w : String) :
    decodeWeapon? (Percent.spell (Utf8.encode w)) = some w := by
  rw [decodeWeapon?, Percent.encode_spell, Percent.decode_encode, Utf8.decode?_encode]

theorem ofPath?_weaponPath {w : String} (h : w ≠ "") :
    ofPath? (weaponPath w) = some (.weapon (Percent.spell (Utf8.encode w))) := by
  have hne : Percent.spell (Utf8.encode w) ≠ "" := by
    apply Percent.spell_ne_empty
    intro hnil
    exact h (Utf8.encode_injective hnil)
  have hpiece : Path.pieces (Percent.spell (Utf8.encode w)).toList =
      [(Percent.spell (Utf8.encode w)).toList] :=
    Path.pieces_of_no_slash (fun c hc => (Percent.not_mark_of_mem_spell hc).1)
  have hfront : Path.pieces ('/' :: "api/taxonomy/weapons".toList) =
      ["".toList, "api".toList, "taxonomy".toList, "weapons".toList] := by
    decide
  rw [ofPath?, toList_weaponPath, ← List.cons_append, Path.pieces_append_slash, hpiece, hfront]
  simp [hne]

/-- No mark that would end the path is in it. -/
theorem not_mark_of_mem_weaponPath {w : String} {c : Char} (h : c ∈ (weaponPath w).toList) :
    (c ≠ '?' && c ≠ '#') = true := by
  have hall : "api/taxonomy/weapons".toList.all (fun d => d ≠ '?' && d ≠ '#') = true := by rfl
  rw [toList_weaponPath, List.mem_cons, List.mem_append, List.mem_cons] at h
  rcases h with rfl | hfront | rfl | hspelled
  · rfl
  · exact List.all_eq_true.mp hall c hfront
  · rfl
  · obtain ⟨-, hquestion, hnumber⟩ := Percent.not_mark_of_mem_spell hspelled
    simp [hquestion, hnumber]

end Endpoint

def weaponRequest (w : String) (headers : List (String × String)) (body : Bytes) : Request :=
  ⟨"GET", Endpoint.weaponPath w, headers, body⟩

theorem path_weaponRequest (w : String) (headers : List (String × String)) (body : Bytes) :
    (weaponRequest w headers body).path = Endpoint.weaponPath w := by
  have hwhole : (Endpoint.weaponPath w).toList.takeWhile (fun c => c ≠ '?' && c ≠ '#') =
      (Endpoint.weaponPath w).toList := by
    rw [List.takeWhile_eq_self_iff]
    intro c hc
    exact Endpoint.not_mark_of_mem_weaponPath hc
  have hslash : (Endpoint.weaponPath w).toList.head? = some '/' := by
    rw [Endpoint.toList_weaponPath, List.head?_cons]
  simp only [Request.path, weaponRequest, hwhole, hslash, true_or, ↓reduceIte, String.ofList_toList]

/-- A response with some JSON in it, which is read as it was meant. -/
structure Response.Tells (r : Response) (status : Nat) (v : Json.Value) : Prop
    extends r.Gives status v where
  read : Json.document r.body = (v.node, false)

def Failure.report (f : Failure) : Json.Value :=
  .object [("error", .object [("code", .text f.code), ("message", .text f.message)])]

namespace Server

theorem tells_share_json (config : Config) (status : Nat) {v : Json.Value} (h : v.Whole) :
    (share config (.json status v)).Tells status v := by
  have hgives := gives_share_json config status v
  exact ⟨hgives, hgives.written ▸ Json.document_compact h⟩

theorem whole_weaponReport (w : String) (e : WeaponEntry) : (weaponReport w e).Whole := by
  simp [weaponReport, Json.Value.Whole, Json.Value.WholeMembers]

theorem whole_report (f : Failure) : f.report.Whole := by
  simp [Failure.report, Json.Value.Whole, Json.Value.WholeMembers]

end Server

namespace Site

def taxonomy (site : Site) : Taxonomy := site.server.classifier.taxonomy

theorem ask_weapon (site : Site) {w : String} (h : w ≠ "") (headers : List (String × String))
    (body : Bytes) :
    (site.ask (weaponRequest w headers body)).1 = Server.share site.server.config
      (match site.taxonomy.lookup w with
      | some e => .json 200 (Server.weaponReport w e)
      | none => (Failure.notFound ("Weapon '" ++ w ++ "' is not in the taxonomy")).response) := by
  have hendpoint := Endpoint.ofPath?_weaponPath h
  rw [← path_weaponRequest w headers body] at hendpoint
  rw [site.ask_allowed hendpoint rfl]
  simp only [Server.sent, weaponRequest, String.reduceEq, ↓reduceIte, Server.answerIn,
    Server.answerWeapon, Endpoint.decodeWeapon?_spell]
  rfl

theorem tells_known (site : Site) {w : String} {e : WeaponEntry} (h : w ≠ "")
    (hlookup : site.taxonomy.lookup w = some e) (headers : List (String × String)) (body : Bytes) :
    (site.ask (weaponRequest w headers body)).1.Tells 200 (Server.weaponReport w e) := by
  rw [site.ask_weapon h, hlookup]
  exact Server.tells_share_json _ 200 (Server.whole_weaponReport w e)

theorem tells_unknown (site : Site) {w : String} (h : w ≠ "")
    (hlookup : site.taxonomy.lookup w = none) (headers : List (String × String)) (body : Bytes) :
    (site.ask (weaponRequest w headers body)).1.Tells 404
      (Failure.notFound ("Weapon '" ++ w ++ "' is not in the taxonomy")).report := by
  rw [site.ask_weapon h, hlookup]
  exact Server.tells_share_json _ 404 (Server.whole_report _)

/-- Whatever has happened to a server since it was started, its taxonomy was accepted. -/
theorem accepted_of_start {config : Config} {machine : Machine} {first : Site}
    (hstart : start config machine = .ok first) (incidents : List Incident) :
    ∃ version groups,
      Taxonomy.ofGroups version groups = .ok (first.run incidents).2.taxonomy := by
  obtain ⟨t, hload, hserver⟩ := run_runsOn incidents (runsOn_of_start hstart)
  rw [taxonomy, hserver]
  exact Taxonomy.exists_ofGroups_of_foundAt (Taxonomy.loadIn_eq_ok_iff.mp hload)

/-- A weapon is found at its address exactly if the installed taxonomy has it. Every weapon that an
accepted taxonomy lists is found, on its side, as none of them is empty; and the taxonomy of a
server that was started is an accepted one, whatever has happened since. -/
theorem weapon_found (site : Site) :
    (∀ w headers body, w ≠ "" →
      (∀ e, site.taxonomy.lookup w = some e →
        (site.ask (weaponRequest w headers body)).1.Tells 200 (.object
          [("weapon", .text w),
           ("faction", .text (match e.faction with | .axis => "axis" | .allies => "allies")),
           ("nation", .text e.nation),
           ("kind", .text (match e.kind with | .infantry => "infantry" | .vehicle => "vehicle"))])) ∧
      (site.taxonomy.lookup w = none →
        (site.ask (weaponRequest w headers body)).1.Tells 404 (.object
          [("error", .object
            [("code", .text "NOT_FOUND"),
             ("message", .text ("Not found: Weapon '" ++ w ++ "' is not in the taxonomy"))])]))) ∧
    (∀ version groups, Taxonomy.ofGroups version groups = .ok site.taxonomy →
      ∀ f w, ListedUnder groups f w → w ≠ "" ∧
        ∃ e, site.taxonomy.lookup w = some e ∧ e.faction = f ∧ ∀ headers body,
          (site.ask (weaponRequest w headers body)).1.Tells 200 (.object
            [("weapon", .text w),
             ("faction", .text (match f with | .axis => "axis" | .allies => "allies")),
             ("nation", .text e.nation),
             ("kind", .text
               (match e.kind with | .infantry => "infantry" | .vehicle => "vehicle"))])) ∧
    (∀ config machine first incidents, start config machine = .ok first →
      site = (first.run incidents).2 →
      ∃ version groups, Taxonomy.ofGroups version groups = .ok site.taxonomy) := by
  refine ⟨fun w headers body h => ⟨?_, ?_⟩, ?_, ?_⟩
  · intro e hlookup
    exact site.tells_known h hlookup headers body
  · intro hlookup
    exact site.tells_unknown h hlookup headers body
  · intro version groups haccepted f w hlisted
    have h : w ≠ "" :=
      Text.ne_empty_of_not_isBlank ((Taxonomy.ofGroups_eq_ok haccepted).1.noBlank f w hlisted)
    have hside := ((Taxonomy.reports_of_ofGroups haccepted).side w f).mpr hlisted
    obtain ⟨e, hlookup, rfl⟩ := Option.map_eq_some_iff.mp hside
    exact ⟨h, e, hlookup, rfl, site.tells_known h hlookup⟩
  · rintro config machine first incidents hstart rfl
    exact accepted_of_start hstart incidents

/-- A machine where the file has a weapon whose name looks like more of an address. -/
def awkwardMachine : Machine :=
  { Machine.blank with
    files := Machine.blank.files.set ["weapons.toml"] (some (.file (Utf8.encode
      ("version = '1'\n[[groups]]\nnation = 'soviet_union'\nfaction = 'allies'\n" ++
        "vehicles = ['100% Т-34/85?']\n")))) }

/-- A server finds it there, and not one that is spelled in other letters. -/
theorem weapon_found_awkward :
    ∃ site, start namedFile awkwardMachine = .ok site ∧
      (site.ask (weaponRequest "100% Т-34/85?" [] [])).1.Tells 200 (.object
        [("weapon", .text "100% Т-34/85?"), ("faction", .text "allies"),
         ("nation", .text "soviet_union"), ("kind", .text "vehicle")]) ∧
      (site.ask (weaponRequest "100% T-34/85?" [] [])).1.Tells 404 (.object
        [("error", .object
          [("code", .text "NOT_FOUND"),
           ("message", .text "Not found: Weapon '100% T-34/85?' is not in the taxonomy")])]) := by
  have hisOk : (Taxonomy.ofFileIn awkwardMachine.files "/weapons.toml").isOk = true := by
    decide +kernel
  obtain ⟨t, journal, hfile, hstart⟩ :=
    exists_start_of_isOk (show namedFile.taxonomyPath = some "/weapons.toml" from rfl) hisOk
  have hmade : (Taxonomy.ofFileIn awkwardMachine.files "/weapons.toml").map (fun t =>
      (t.lookup "100% Т-34/85?", t.lookup "100% T-34/85?")) =
      .ok (some ⟨.allies, "soviet_union", .vehicle⟩, none) := by
    decide +kernel
  rw [hfile] at hmade
  obtain ⟨hknown, hunknown⟩ := Prod.mk.inj (Except.ok.inj hmade)
  have hfound := weapon_found
    ⟨⟨namedFile, ⟨t, namedFile.classifier⟩⟩, { awkwardMachine with journal }⟩
  refine ⟨_, hstart, ?_, ?_⟩
  · exact (hfound.1 "100% Т-34/85?" [] [] (by simp)).1 _ hknown
  · exact (hfound.1 "100% T-34/85?" [] [] (by simp)).2 hunknown

end Site

end Http

end Allegiance
