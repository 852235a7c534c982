import OumraHajj.Async.Sequential
import OumraHajj.Calendar.Service
import OumraHajj.Common.Rfc5545

/-!
# What is read in a feed

A feed is five lines, seven lines for each package and one at the end, and its texts stand for the name of
the calendar and the titles of the packages, whatever is in these (`feed_lines`). It is that of the agency
whose secret is in the link (`getAgencyFeed_iff`).
-/

namespace OumraHajj.Calendar

open Async

/-- The lines before the events. -/
def entete (nom : String) : List String :=
  ["BEGIN:VCALENDAR", "VERSION:2.0", "PRODID:-//Oumra-Hadj Platform//Calendrier Agence//FR",
    "CALSCALE:GREGORIAN", "X-WR-CALNAME:" ++ nom]

/-- The lines of the event of a package, with the text `resume`. -/
def evenement (uuid : PackageId → Uuid) (dtstamp : String) (pkg : PackageShape) (resume : String) :
    List String :=
  ["BEGIN:VEVENT", "UID:" ++ (uuid pkg.id).texte ++ "@" ++ calendarUidDomain, "DTSTAMP:" ++ dtstamp,
    "DTSTART;VALUE=DATE:" ++ toIcsDate pkg.startDate,
    "DTEND;VALUE=DATE:" ++ toIcsDate (addDays pkg.endDate 1), "SUMMARY:" ++ resume, "END:VEVENT"]

/-- The lines are an event of the package, and its text stands for the title. -/
def Evenement (uuid : PackageId → Uuid) (dtstamp : String) (pkg : PackageShape) (lignes : List String) :
    Prop :=
  ∃ resume, Rfc5545.unescape resume = some pkg.title ∧ lignes = evenement uuid dtstamp pkg resume

/-! ## Texts -/

/-- The four replacements, one after the other, escape each character once. -/
theorem escapeIcsText_toList (value : String) :
    (escapeIcsText value).toList = Rfc5545.escape value.toList := by
  simp only [escapeIcsText, replace, String.toList_ofList, List.flatMap_assoc, Rfc5545.escape]
  refine List.flatMap_congr fun c _ => ?_
  by_cases hbackslash : c = '\\'
  · subst hbackslash
    decide
  by_cases hcomma : c = ','
  · subst hcomma
    decide
  by_cases hsemicolon : c = ';'
  · subst hsemicolon
    decide
  by_cases hlf : c = '\n'
  · subst hlf
    decide
  simp [Rfc5545.escapeChar, Rfc5545.special, hbackslash, hcomma, hsemicolon, hlf]

theorem unescape_escapeIcsText (value : String) :
    Rfc5545.unescape (escapeIcsText value) = some value := by
  rw [Rfc5545.unescape, escapeIcsText_toList, Rfc5545.unescapeChars_escape, Option.map_some,
    String.ofList_toList]

theorem notMem_escapeIcsText (value : String) : '\n' ∉ (escapeIcsText value).toList := by
  rw [escapeIcsText_toList]
  exact Rfc5545.notMem_escape _

theorem notMem_toISOString (t : Time) : '\n' ∉ (toISOString t).toList := by
  unfold toISOString
  rw [String.toList_ofList]
  intro h
  rcases Iso.caracteres_mem h with h | h
  · exact absurd h (by decide)
  · exact absurd h (by decide)

theorem notMem_toIcsDate (t : Time) : '\n' ∉ (toIcsDate t).toList := by
  unfold toIcsDate replace versJour
  simp only [String.toList_ofList]
  intro h
  obtain ⟨c, hc, hmem⟩ := List.mem_flatMap.mp h
  split at hmem
  · exact absurd hmem List.not_mem_nil
  · rw [List.mem_singleton.mp hmem] at h
    exact notMem_toISOString t (List.mem_of_mem_take (List.mem_singleton.mp hmem ▸ hc))

theorem mem_sansMillisecondes {texte : String} {c : Char} (h : c ∈ (sansMillisecondes texte).toList) :
    c ∈ texte.toList ∨ c = 'Z' := by
  unfold sansMillisecondes at h
  dsimp only at h
  split at h
  · split at h
    · rw [String.toList_ofList] at h
      rcases List.mem_append.mp h with h | h
      · exact .inl (List.mem_of_mem_take h)
      · exact .inr (List.mem_singleton.mp h)
    · exact .inl h
  · exact .inl h

theorem notMem_toIcsTimestamp (t : Time) : '\n' ∉ (toIcsTimestamp t).toList := by
  intro h
  rcases mem_sansMillisecondes h with h | h
  · rw [String.toList_ofList] at h
    exact notMem_toISOString t (List.mem_of_mem_filter h)
  · exact absurd h (by decide)

/-! ## Lines -/

theorem notMem_entete {nom : String} (h : '\n' ∉ nom.toList) : ∀ ligne ∈ entete nom, '\n' ∉ ligne.toList := by
  simp only [entete, List.forall_mem_cons, List.not_mem_nil, false_imp_iff, implies_true, and_true,
    String.toList_append, List.mem_append, h, or_false]
  decide +kernel

theorem notMem_evenement (uuid : PackageId → Uuid) {dtstamp : String} (pkg : PackageShape)
    {resume : String} (hdtstamp : '\n' ∉ dtstamp.toList) (hresume : '\n' ∉ resume.toList) :
    ∀ ligne ∈ evenement uuid dtstamp pkg resume, '\n' ∉ ligne.toList := by
  have huid : '\n' ∉ (uuid pkg.id).texte.toList := (uuid pkg.id).notMem (by decide)
  simp only [evenement, List.forall_mem_cons, List.not_mem_nil, false_imp_iff, implies_true, and_true,
    String.toList_append, List.mem_append, hdtstamp, hresume, huid, notMem_toIcsDate, or_false]
  decide +kernel

section Lignes

variable (uuid : PackageId → Uuid) (legalName : String) (packages : List PackageShape)

/-- The lines of each event, and the last line. -/
def blocs (dtstamp : String) : List (List String) :=
  packages.map (fun pkg => evenement uuid dtstamp pkg (escapeIcsText pkg.title)) ++ [["END:VCALENDAR"]]

theorem ne_nil_of_mem_blocs {dtstamp : String} : ∀ bloc ∈ blocs uuid packages dtstamp, bloc ≠ [] := by
  intro bloc h
  rcases List.mem_append.mp h with h | h
  · obtain ⟨pkg, -, rfl⟩ := List.mem_map.mp h
    exact List.cons_ne_nil _ _
  · rw [List.mem_singleton.mp h]
    exact List.cons_ne_nil _ _

theorem flatten_blocs (dtstamp : String) : (blocs uuid packages dtstamp).flatten =
    (packages.map fun pkg => evenement uuid dtstamp pkg (escapeIcsText pkg.title)).flatten ++
      ["END:VCALENDAR"] := by
  rw [blocs, List.flatten_append, List.flatten_singleton]

/-- A feed is its lines, with a line break between them. -/
theorem feed_eq (dtstamp : String) : feed uuid legalName packages dtstamp =
    "\r\n".intercalate (entete (escapeIcsText (calname legalName)) ++
      (blocs uuid packages dtstamp).flatten) := by
  have hblocs : packages.map (toIcsEvent uuid dtstamp) ++ ["END:VCALENDAR"] =
      (blocs uuid packages dtstamp).map "\r\n".intercalate := by
    rw [blocs, List.map_append, List.map_map, List.map_singleton, String.intercalate_singleton]
    rfl
  have hne : (blocs uuid packages dtstamp).flatten ≠ [] := by
    rw [flatten_blocs]
    exact List.append_ne_nil_of_right_ne_nil _ (List.cons_ne_nil _ _)
  have hentete : entete (escapeIcsText (calname legalName)) ≠ [] := List.cons_ne_nil _ _
  unfold feed
  rw [List.append_assoc, hblocs]
  calc icsLineBreak.intercalate (entete (escapeIcsText (calname legalName)) ++
        (blocs uuid packages dtstamp).map "\r\n".intercalate)
      = "\r\n".intercalate (entete (escapeIcsText (calname legalName))) ++ "\r\n" ++
          "\r\n".intercalate ((blocs uuid packages dtstamp).map "\r\n".intercalate) :=
        String.intercalate_append_of_ne_nil hentete (by simp [blocs])
    _ = _ := by
        rw [Rfc5545.intercalate_flatten (ne_nil_of_mem_blocs uuid packages),
          String.intercalate_append_of_ne_nil hentete hne]

theorem notMem_lignes {dtstamp : String} (hdtstamp : '\n' ∉ dtstamp.toList) :
    ∀ ligne ∈ entete (escapeIcsText (calname legalName)) ++ (blocs uuid packages dtstamp).flatten,
      '\n' ∉ ligne.toList := by
  intro ligne hligne
  rcases List.mem_append.mp hligne with h | h
  · exact notMem_entete (notMem_escapeIcsText _) ligne h
  rw [flatten_blocs] at h
  rcases List.mem_append.mp h with h | h
  · obtain ⟨lignes, hlignes, h⟩ := List.mem_flatten.mp h
    obtain ⟨pkg, -, rfl⟩ := List.mem_map.mp hlignes
    exact notMem_evenement uuid pkg hdtstamp (notMem_escapeIcsText _) ligne h
  · rw [List.mem_singleton.mp h]
    decide +kernel

/-- **A feed keeps its structure**, whatever the name of the agency and the titles of its packages. -/
theorem feed_lines (maintenant : Time) :
    let dtstamp := toIcsTimestamp maintenant
    let lignes := Rfc5545.lines (feed uuid legalName packages dtstamp)
    (∃ nom evenements, lignes = entete nom ++ evenements.flatten ++ ["END:VCALENDAR"] ∧
      Rfc5545.unescape nom = some ("Échéances clés — " ++ legalName) ∧
      List.Forall₂ (Evenement uuid dtstamp) packages evenements) ∧
    ∀ ligne ∈ lignes, '\n' ∉ ligne.toList := by
  intro dtstamp lignes
  have hlf := notMem_lignes uuid legalName packages (notMem_toIcsTimestamp maintenant)
  have hlignes : lignes = entete (escapeIcsText (calname legalName)) ++
      (blocs uuid packages dtstamp).flatten := by
    show Rfc5545.lines (feed uuid legalName packages dtstamp) = _
    rw [feed_eq]
    exact Rfc5545.lines_intercalate hlf (List.cons_ne_nil _ _)
  refine ⟨⟨escapeIcsText (calname legalName),
    packages.map fun pkg => evenement uuid dtstamp pkg (escapeIcsText pkg.title), ?_,
    unescape_escapeIcsText _, ?_⟩, ?_⟩
  · rw [hlignes, flatten_blocs, List.append_assoc]
  · rw [List.forall₂_map_right_iff, List.forall₂_same]
    exact fun pkg _ => ⟨_, unescape_escapeIcsText _, rfl⟩
  · rw [hlignes]
    exact hlf

end Lignes

/-! ## Whose feed it is -/

/-- A link gives the feed of the agency whose secret is in it, with all its packages, or it is refused. -/
theorem getAgencyFeed_iff {uuid : PackageId → Uuid} {token : String} {s s' : Store}
    {r : Except Erreur String} (h : backend.Runs (CalendarService.getAgencyFeed uuid token) s r s') :
    s' = s ∧ match s.agencyOfToken token with
      | none => r = .error (.notFound "Lien de calendrier invalide")
      | some (id, agency) => ∃ (pkgs : List (PackageId × Package)) (maintenant : Time),
        pkgs.Perm (s.app.packages.findMany (·.agencyId = id)) ∧
        r = .ok (feed uuid agency.legalName (pkgs.map fun x => toPackageShape x.1 x.2)
          (toIcsTimestamp maintenant)) := by
  obtain ⟨e, h⟩ := h
  have hanswer : (backend.exec (.inr (.agencyFindUniqueByToken token)) e s).1 = s.agencyOfToken token := rfl
  rw [hanswer] at h
  rcases ha : s.agencyOfToken token with _ | ⟨id, agency⟩
  · rw [ha] at h
    exact ⟨h.2, h.1⟩
  · rw [ha] at h
    obtain ⟨e', e'', hr, hs⟩ := h
    exact ⟨hs, _, _, List.perm_insertionSort _ _, hr⟩

end OumraHajj.Calendar
