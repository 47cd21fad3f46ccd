import ElmTypes.Proofs.Lexical.Qualified
import ElmTypes.Proofs.Printing.Checked
import ElmTypes.Proofs.Printing.Derivation

namespace ElmTypes

open Reader

structure Scope.WellNamed (s : Scope) : Prop where
  home : IsUpperName s.home
  aliases : ∀ a ∈ s.aliases, IsUpperName a.2
  exposed : ∀ x ∈ s.exposed, IsUpperName x.2

theorem isUpperName_of_capitals {w : String} {c : Char} {cs : List Char} (hw : w.toList = c :: cs)
    (hc : Lexeme.Name.canBegin c = true)
    (hr : Lexeme.Name.rest (Unicode.isUppercase c) cs = cs) (hu : Word.isCapitalised w = true) :
    IsUpperName w :=
  ⟨⟨c, cs, hw, hc, hr⟩, hu⟩

theorem isUpperName_main : IsUpperName "Main" :=
  isUpperName_of_capitals rfl (by decide) (by decide) (by decide)

theorem isUpperName_of_default {m : String} (h : m ∈ ["Basics", "List", "Maybe", "Result", "String",
    "Char", "Platform", "Platform.Cmd", "Platform.Sub"]) : IsUpperName m := by
  simp only [List.mem_cons, List.not_mem_nil, or_false] at h
  rcases h with rfl | rfl | rfl | rfl | rfl | rfl | rfl | rfl | rfl <;>
    exact isUpperName_of_capitals rfl (by decide) (by decide) (by decide)

section

variable {source : String} {tokens : List Token}

theorem Reader.IsModule.isUpperName (hl : lex source = .ok tokens) {name : String}
    (h : IsModule tokens name) : IsUpperName name := by
  obtain ⟨t, ht, hn⟩ := h
  obtain ⟨hk, hupper⟩ := TokenKind.capitalisedName?_eq_some_iff.1 hn
  exact ⟨isWord_of_lex hl ht hk, hupper⟩

theorem Scope.module_of_mem_importedAliases {i : Import} {a : String × String}
    (h : a ∈ importedAliases i) : a.2 = i.module := by
  obtain ⟨name, -, rfl⟩ := List.mem_map.1 h
  rfl

theorem Scope.module_of_mem_importedTypes {i : Import} {a : String × String}
    (h : a ∈ importedTypes i) : a.2 = i.module := by
  unfold importedTypes at h
  split at h
  · obtain ⟨name, -, rfl⟩ := List.mem_map.1 h
    rfl
  · cases h

theorem Scope.wellNamed_ofFile (hl : lex source = .ok tokens) {file : SourceFile}
    (h : file.Sound tokens) : (Scope.ofFile file).WellNamed := by
  have himports {bind : Import → List (String × String)}
      (hb : ∀ i, ∀ a ∈ bind i, a.2 = i.module) :
      ∀ a ∈ file.imports.reverse.flatMap bind, IsUpperName a.2 := by
    intro a ha
    obtain ⟨i, hi, hai⟩ := List.mem_flatMap.1 ha
    rw [hb i a hai]
    exact (h.imports i (List.mem_reverse.1 hi)).isUpperName hl
  refine ⟨?_, ?_, ?_⟩
  · change IsUpperName file.moduleName
    unfold SourceFile.moduleName
    split
    · rename_i header hheader
      exact (h.header header hheader).isUpperName hl
    · exact isUpperName_main
  · refine List.forall_mem_append.2 ⟨himports fun _ _ => module_of_mem_importedAliases, ?_⟩
    intro a ha
    apply isUpperName_of_default
    revert a
    decide
  · refine List.forall_mem_append.2 ⟨himports fun _ _ => module_of_mem_importedTypes, ?_⟩
    intro x hx
    apply isUpperName_of_default
    revert x
    decide

def TypeName.ReadsBack (n : TypeName) : Prop :=
  IsUpperName n.text ∧ ∀ s, TypeName.ofWord n.text s = { n with span := s }

theorem IsUpperName.readsBack {w : String} (h : IsUpperName w) (s : Span) :
    (TypeName.ofWord w s).ReadsBack := by
  rw [TypeName.ReadsBack, TypeName.text_ofWord]
  refine ⟨h, fun s' => ?_⟩
  unfold TypeName.ofWord
  split <;> rfl

theorem IsTypeName.readsBack {w : String} (h : IsTypeName w) {m : Option String}
    (hm : ∀ q ∈ m, IsUpperName q) (s : Span) : TypeName.ReadsBack ⟨m, w, s⟩ := by
  cases m with
  | none => exact ⟨h.toIsUpperName, h.ofWord_eq⟩
  | some q => exact ⟨(hm q rfl).qualified h, h.ofWord_qualified q⟩

theorem isUpperName_of_lookup {table : List (String × String)} {q m : String}
    (h : ∀ a ∈ table, IsUpperName a.2) (hq : table.lookup q = some m) : IsUpperName m := by
  obtain ⟨before, after, rfl, -⟩ := List.lookup_eq_some_iff.1 hq
  exact h (q, m) (by simp)

theorem Scope.WellNamed.readsBack_resolve {s : Scope} (h : s.WellNamed) {w : String}
    (hw : IsUpperName w) (span : Span) : (s.resolve (.ofWord w span)).ReadsBack := by
  have hname : IsTypeName (TypeName.ofWord w span).name := hw.ofWord span
  have hself := hw.readsBack span
  generalize TypeName.ofWord w span = n at hname hself ⊢
  obtain ⟨m, name, span'⟩ := n
  cases m with
  | none =>
      refine hname.readsBack ?_ span'
      intro q hq
      simp only [module?] at hq
      split at hq
      · obtain rfl := Option.some.inj hq
        exact h.home
      · exact isUpperName_of_lookup h.exposed hq
  | some q =>
      cases hlookup : s.aliases.lookup q with
      | none =>
          -- no import goes by that name, so it is the module itself
          have hsame : s.resolve ⟨some q, name, span'⟩ = ⟨some q, name, span'⟩ := by
            simp [resolve, module?, hlookup]
          rw [hsame]
          exact hself
      | some m =>
          have hmodule : s.resolve ⟨some q, name, span'⟩ = ⟨some m, name, span'⟩ := by
            simp [resolve, module?, hlookup]
          rw [hmodule]
          refine hname.readsBack ?_ span'
          rintro _ ⟨⟩
          exact isUpperName_of_lookup h.aliases hlookup

namespace TypeExpr

theorem Written.wellNamed (hl : lex source = .ok tokens) {f : TypeName → TypeName}
    (hf : ∀ w span, IsUpperName w → (f (.ofWord w span)).ReadsBack) {e : TypeExpr}
    (h : Written tokens e) : (e.mapNames f).WellNamed := by
  have hn := h.named
  cases e with
  | «variable» name span => exact hn.isLowerName hl
  | named n arguments span =>
      obtain ⟨t, ht, w, hw, rfl⟩ := hn
      obtain ⟨hk, hupper⟩ := TokenKind.capitalisedName?_eq_some_iff.1 hw
      exact hf w t.span ⟨isWord_of_lex hl ht hk, hupper⟩
  | tuple elements span =>
      rw [mapNames, mapNamesAll_eq_map, WellNamed, List.length_map]
      exact hn
  | record fields span =>
      rw [mapNames, mapNamesFields_eq_map, WellNamed, List.forall_mem_map]
      exact fun field hfield => (hn field hfield).isLowerName hl
  | extensible base fields span =>
      obtain ⟨hbase, hne, hfields⟩ := hn
      rw [mapNames, mapNamesFields_eq_map, WellNamed, List.forall_mem_map]
      refine ⟨hbase.isLowerName hl, by simpa using hne, ?_⟩
      exact fun field hfield => (hfields field hfield).isLowerName hl
  | unit span | function domain codomain span => trivial

theorem map_types_eq_self {f : TypeExpr → TypeExpr} {fields : List (RecordField TypeExpr)}
    (h : ∀ r ∈ fields, f r.type = r.type) :
    fields.map (fun r => { r with type := f r.type }) = fields := by
  refine (List.map_congr_left fun r hr => ?_).trans (List.map_id' fields)
  rw [h r hr]

theorem mapNames_id (e : TypeExpr) : e.mapNames id = e := by
  induction e with
  | typeVariable name s => rfl
  | named n arguments s ih =>
      rw [mapNames, mapNamesAll_eq_map, List.map_congr_left ih, List.map_id']
      rfl
  | unit s => rfl
  | tuple elements s ih => rw [mapNames, mapNamesAll_eq_map, List.map_congr_left ih, List.map_id']
  | record fields s ih => rw [mapNames, mapNamesFields_eq_map, map_types_eq_self ih]
  | extensible base fields s ih => rw [mapNames, mapNamesFields_eq_map, map_types_eq_self ih]
  | function domain codomain s ihd ihc => rw [mapNames, ihd, ihc]

theorem All.of_mem_visits {P : TypeExpr → Prop} {e a : TypeExpr} (h : e.All P) {around : List Node}
    {v : Visit} (hv : v ∈ e.visits around) (ha : v.node = .type a) : a.All P := by
  induction h generalizing around with
  | @mk e hp hs ih =>
      rw [visits_eq_cons, List.mem_cons, List.mem_flatMap] at hv
      rcases hv with rfl | ⟨b, hb, hv⟩
      · cases ha
        exact .mk hp hs
      · exact ih b hb hv

theorem run_typeExpr_text {e : TypeExpr} (h : e.All WellNamed) :
    ∃ ts b d, lex (" " ++ e.text) = .ok ts ∧ typeExpr.run (.start ts) = .ok b d ∧
      d.ahead = [] ∧ b.erase = e.erase := by
  obtain ⟨ts, hkinds, hcolumns, hlex⟩ :=
    spells_text h [] [] 1 1 Lexeme.delimits_nil (by simp [lexFrom])
  rw [List.append_nil, List.append_nil] at hlex
  have hblank : lex (" " ++ e.text) = .ok ts := by
    rw [lex, String.toList_append]
    exact (@lexFrom_of_scan_eq_skipped ' ' [] e.text.toList (Lexeme.scan_blank rfl _) 0 0).trans hlex
  have hin : Inside ts := by
    intro t ht
    have hpos : t.column ≠ 0 := Nat.ne_of_gt (hcolumns t ht)
    simpa [Token.startsDeclaration] using hpos
  obtain ⟨b, hb, hderives⟩ := (recovered_of_kinds h hkinds).type
  have hends : Ends [] := .of_starts (by simp)
  obtain ⟨expected, hrun⟩ := accepts_typeExpr ts.length hderives hin (Nat.le_refl _) hends .empty []
  rw [List.append_nil] at hrun
  exact ⟨ts, b, _, hblank, hrun, rfl, hb⟩

end TypeExpr

theorem SourceFile.mem_types_of_visits {f : SourceFile} {v : Visit} {a : TypeExpr}
    (hv : v ∈ f.visits) (ha : v.node = .type a) :
    ∃ d ∈ f.declarations, ∃ e ∈ d.declared.types, ∃ around, v ∈ e.visits around := by
  obtain ⟨d, hd, hv⟩ := List.mem_flatMap.1 hv
  rcases List.mem_cons.1 hv with rfl | hv
  · cases ha
  · rw [TypeExpr.visitsAll_eq_flatMap] at hv
    obtain ⟨e, he, hv⟩ := List.mem_flatMap.1 hv
    exact ⟨d, hd, e, he, _, hv⟩

theorem SourceFile.all_wellNamed {file f : SourceFile} (hl : lex source = .ok tokens)
    (hf : SourceFile.ofTokens tokens = .ok file) (h : f = file ∨ f = file.resolve) :
    ∀ d ∈ f.declarations, ∀ e ∈ d.declared.types, e.All TypeExpr.WellNamed := by
  have hsound := (sound_ofTokens tokens).1 file hf
  have hwritten : ∀ d ∈ file.declarations, ∀ e ∈ d.declared.types,
      e.All (TypeExpr.Written tokens) := by
    intro d hd
    obtain ⟨ts, hts, hderives⟩ := hsound.declarations d hd
    exact (hderives.declared.written hts.subset).types
  rcases h with rfl | rfl
  · intro d hd e he
    rw [← e.mapNames_id]
    exact (hwritten d hd e he).mapNames id fun b hb =>
      hb.wellNamed hl fun w span hw => hw.readsBack span
  · intro d hd e he
    obtain ⟨d', hd', rfl⟩ := List.mem_map.1 hd
    rw [Declaration.mapNames, Declared.types_mapNames] at he
    obtain ⟨e', he', rfl⟩ := List.mem_map.1 he
    have hscope := Scope.wellNamed_ofFile hl hsound
    exact (hwritten d' hd' e' he').mapNames _ fun b hb =>
      hb.wellNamed hl fun w span hw => hscope.readsBack_resolve hw span

end

theorem SourceFile.type_text_reads_back {source : String} {file f : SourceFile}
    (hp : SourceFile.parse source = .ok file) (hf : f = file ∨ f = file.resolve) {v : Visit}
    (hv : v ∈ f.visits) {a : TypeExpr} (ha : v.node = .type a) :
    ∃ ts b d, lex (" " ++ a.text) = .ok ts ∧ typeExpr.run (.start ts) = .ok b d ∧
      d.ahead = [] ∧ b.erase = a.erase := by
  obtain ⟨tokens, hl, hfile⟩ := SourceFile.parse_eq_ok_iff.1 hp
  obtain ⟨d, hd, e, he, around, hv⟩ := SourceFile.mem_types_of_visits hv ha
  have hall := SourceFile.all_wellNamed hl hfile hf d hd e he
  exact TypeExpr.run_typeExpr_text (hall.of_mem_visits hv ha)

theorem SourceFile.type_text_reads_back_dict :
    let source := "\n".intercalate
      ["import Dict as D", "index : D.Dict Int (a -> Maybe \x7b r | key : b \x7d) -> ()",
        "index = 1"]
    let text := "Dict.Dict Basics.Int (a -> Maybe.Maybe \x7b r | key : b \x7d) -> ()"
    ∃ file a, SourceFile.parse source = .ok file ∧ a.text = text ∧
      (∃ v ∈ file.resolve.visits, v.node = .type a) ∧
      ∃ ts b d, lex (" " ++ a.text) = .ok ts ∧ typeExpr.run (.start ts) = .ok b d ∧
        d.ahead = [] ∧ b.erase = a.erase := by
  intro source text
  have hprinted : ((SourceFile.parse source).toOption.any fun file =>
      file.resolve.visits.any fun v =>
        match v.node with
        | .type a => a.text == text
        | .declaration _ => false) = true := by decide +kernel
  obtain ⟨file, hfile, hvisits⟩ := (Option.any_eq_true _ _).1 hprinted
  obtain ⟨v, hv, hnode⟩ := List.any_eq_true.1 hvisits
  have hp : SourceFile.parse source = .ok file := by
    cases hparse : SourceFile.parse source with
    | ok file' => simpa [hparse, Except.toOption] using hfile
    | error es => simp [hparse, Except.toOption] at hfile
  cases ha : v.node with
  | declaration d => simp [ha] at hnode
  | type a =>
      refine ⟨file, a, hp, by simpa [ha] using hnode, ⟨v, hv, ha⟩, ?_⟩
      exact SourceFile.type_text_reads_back hp (.inr rfl) hv ha

end ElmTypes
