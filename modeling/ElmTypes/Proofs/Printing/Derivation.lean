import ElmTypes.Proofs.Grammar.Completeness
import ElmTypes.Proofs.Printing.Spelling

namespace ElmTypes

def Recovers (ts : List Token) (phrase : TypeExpr → Phrase) (e : TypeExpr) : Prop :=
  ∃ e', e'.erase = e.erase ∧ Derives ts (phrase e')

structure Recovered (ts : List Token) (e : TypeExpr) : Prop where
  type : Recovers ts .type e
  application : e.isFunction = false → Recovers ts .application e
  atom : e.isCompound = false → Recovers ts .atom e

theorem listed_of_intercalate {s : Symbol} {ts : List Token} {ks : List TokenKind}
    {kss : List (List TokenKind)}
    (h : ts.map Token.kind = [TokenKind.symbol s].intercalate (ks :: kss)) :
    ∃ us vs, ts = us ++ vs ∧ us.map Token.kind = ks ∧
      Listed s (fun ts ks => ts.map Token.kind = ks) vs kss := by
  induction kss generalizing ts ks with
  | nil => exact ⟨ts, [], by simp, by simpa using h, .nil⟩
  | cons ls kss ih =>
      rw [List.intercalate_cons_cons, List.append_assoc] at h
      obtain ⟨us, vs, rfl, hus, hvs⟩ := List.map_eq_append_iff.1 h
      obtain ⟨t, ws, rfl, ht, hws⟩ := List.map_eq_cons_iff.1 hvs
      obtain ⟨us', vs', rfl, hus', hvs'⟩ := ih hws
      exact ⟨us, t :: (us' ++ vs'), rfl, hus, .cons ht hus' hvs'⟩

theorem exists_bracketed_of_intercalate {k k' : TokenKind} {s : Symbol} {ts : List Token}
    {ks : List TokenKind} {kss : List (List TokenKind)}
    (h : ts.map Token.kind = k :: ([TokenKind.symbol s].intercalate (ks :: kss) ++ [k'])) :
    ∃ l us vs r, ts = l :: (us ++ (vs ++ [r])) ∧ l.kind = k ∧ us.map Token.kind = ks ∧
      Listed s (fun ts ks => ts.map Token.kind = ks) vs kss ∧ r.kind = k' := by
  obtain ⟨l, ws, r, rfl, hl, hws, hr⟩ := Token.exists_bracketed h
  obtain ⟨us, vs, rfl, hus, hvs⟩ := listed_of_intercalate hws
  exact ⟨l, us, vs, r, by rw [List.append_assoc], hl, hus, hvs, hr⟩

section

variable {ts us : List Token} {e : TypeExpr}

theorem Recovered.of_application (hc : e.isCompound = true) (h : Recovers ts .application e) :
    Recovered ts e := by
  refine ⟨?_, fun _ => h, fun ha => by simp [hc] at ha⟩
  obtain ⟨e', he, hd⟩ := h
  exact ⟨e', he, .ofApplication hd⟩

theorem Recovered.of_atom (h : Recovers ts .atom e) : Recovered ts e := by
  obtain ⟨e', he, hd⟩ := h
  refine ⟨?_, fun _ => ?_, fun _ => ⟨e', he, hd⟩⟩
  · exact ⟨e', he, .ofApplication (.ofAtom hd)⟩
  · exact ⟨e', he, .ofAtom hd⟩

theorem recovers_bracket {ks : List TokenKind}
    (h : ∀ ts, ts.map Token.kind = ks → Recovers ts .type e)
    (hts : ts.map Token.kind = TypeExpr.bracket true ks) : Recovers ts .atom e := by
  obtain ⟨l, us, r, rfl, hl, hus, hr⟩ := Token.exists_bracketed hts
  obtain ⟨e', he, hd⟩ := h us hus
  exact ⟨_, (TypeExpr.erase_withSpan _ e').trans he, .parenthesized hl hd hr⟩

theorem recovers_arguments {as : List TypeExpr}
    (h : ∀ a ∈ as, ∀ ts, ts.map Token.kind = a.kinds → Recovered ts a)
    (hts : ts.map Token.kind = (TypeExpr.argumentKinds as).flatten) :
    ∃ as', as'.map TypeExpr.erase = as.map TypeExpr.erase ∧ Derives ts (.arguments as') := by
  induction as generalizing ts with
  | nil =>
      obtain rfl := List.map_eq_nil_iff.1 hts
      exact ⟨[], rfl, .noArguments⟩
  | cons a as ih =>
      obtain ⟨ha, has⟩ := List.forall_mem_cons.1 h
      rw [TypeExpr.argumentKinds, List.flatten_cons] at hts
      obtain ⟨us, vs, rfl, hus, hvs⟩ := List.map_eq_append_iff.1 hts
      obtain ⟨as', has', hd⟩ := ih has hvs
      have hatom : Recovers us .atom a := by
        cases hc : a.isCompound with
        | false => exact (ha us (by simpa [TypeExpr.bracket, hc] using hus)).atom hc
        | true => exact recovers_bracket (fun ts h => (ha ts h).type) (hc ▸ hus)
      obtain ⟨a', ha', hd'⟩ := hatom
      exact ⟨a' :: as', by simp [ha', has'], .argument hd' hd⟩

theorem recovers_elements {as : List TypeExpr}
    (h : ∀ a ∈ as, ∀ ts, ts.map Token.kind = a.kinds → Recovered ts a)
    (hts : Listed .comma (fun ts ks => ts.map Token.kind = ks) ts (TypeExpr.elementKinds as)) :
    ∃ as', as'.map TypeExpr.erase = as.map TypeExpr.erase ∧ Derives ts (.elements as') := by
  induction as generalizing ts with
  | nil =>
      cases hts
      exact ⟨[], rfl, .noElements⟩
  | cons a as ih =>
      obtain ⟨ha, has⟩ := List.forall_mem_cons.1 h
      cases hts with
      | cons ht hus hvs =>
          obtain ⟨a', ha', hd'⟩ := (ha _ hus).type
          obtain ⟨as', has', hd⟩ := ih has hvs
          exact ⟨a' :: as', by simp [ha', has'], .element ht hd' hd⟩

theorem recovers_field {f : RecordField TypeExpr} (hn : IsLowerName f.name)
    (h : ∀ ts, ts.map Token.kind = f.type.kinds → Recovered ts f.type)
    (hts : ts.map Token.kind = .word f.name :: .symbol .colon :: f.type.kinds) :
    ∃ f', TypeExpr.eraseField f' = TypeExpr.eraseField f ∧ Derives ts (.field f') := by
  obtain ⟨n, vs, rfl, hm, hvs⟩ := List.map_eq_cons_iff.1 hts
  obtain ⟨t, us, rfl, ht, hus⟩ := List.map_eq_cons_iff.1 hvs
  obtain ⟨a', ha', hd⟩ := (h us hus).type
  refine ⟨_, ?_, .field (TokenKind.lowercaseName?_eq_some_iff.2 ⟨hm, hn.isLowercase⟩) ht hd⟩
  simp [TypeExpr.eraseField, ha']

theorem recovers_fields {fs : List (RecordField TypeExpr)} (hn : ∀ f ∈ fs, IsLowerName f.name)
    (h : ∀ f ∈ fs, ∀ ts, ts.map Token.kind = f.type.kinds → Recovered ts f.type)
    (hts : Listed .comma (fun ts ks => ts.map Token.kind = ks) ts (TypeExpr.fieldKinds fs)) :
    ∃ fs', fs'.map TypeExpr.eraseField = fs.map TypeExpr.eraseField ∧ Derives ts (.fields fs') := by
  induction fs generalizing ts with
  | nil =>
      cases hts
      exact ⟨[], rfl, .noFields⟩
  | cons f fs ih =>
      obtain ⟨hf, hfs⟩ := List.forall_mem_cons.1 h
      obtain ⟨hnf, hnfs⟩ := List.forall_mem_cons.1 hn
      cases hts with
      | cons ht hus hvs =>
          obtain ⟨f', hf', hd'⟩ := recovers_field hnf hf hus
          obtain ⟨fs', hfs', hd⟩ := ih hnfs hfs hvs
          exact ⟨f' :: fs', by simp [hf', hfs'], .fields ht hd' hd⟩

theorem recovered_variable {name : String} {s : Span} (hn : IsLowerName name)
    (hts : ts.map Token.kind = [.word name]) : Recovered ts (.variable name s) := by
  obtain ⟨t, rfl, ht⟩ := List.map_eq_singleton_iff.1 hts
  have hk := TokenKind.lowercaseName?_eq_some_iff.2 ⟨ht, hn.isLowercase⟩
  refine .of_atom ⟨_, ?_, .typeVariable hk⟩
  rfl

theorem recovered_named {n : TypeName} {as : List TypeExpr} {s : Span} (hn : IsUpperName n.text)
    (hword : ∀ s, TypeName.ofWord n.text s = { n with span := s })
    (h : ∀ a ∈ as, ∀ ts, ts.map Token.kind = a.kinds → Recovered ts a)
    (hts : ts.map Token.kind = (TypeExpr.named n as s).kinds) : Recovered ts (.named n as s) := by
  obtain ⟨t, us, rfl, ht, hus⟩ := List.map_eq_cons_iff.1 hts
  obtain ⟨bs, hbs, hd⟩ := recovers_arguments h hus
  have hk := TokenKind.capitalisedName?_eq_some_iff.2 ⟨ht, hn.isCapitalised⟩
  cases as with
  | nil =>
      obtain rfl := List.map_eq_nil_iff.1 hbs
      cases hd
      refine .of_atom ⟨_, ?_, .named hk⟩
      simp [hword]
  | cons a as =>
      refine .of_application rfl ⟨_, ?_, .applied hk hd⟩
      simp [hword, hbs]

theorem recovered_unit {s : Span} (hts : ts.map Token.kind = (TypeExpr.unit s).kinds) :
    Recovered ts (.unit s) := by
  obtain ⟨l, us, rfl, hl, hus⟩ := List.map_eq_cons_iff.1 hts
  obtain ⟨r, rfl, hr⟩ := List.map_eq_singleton_iff.1 hus
  refine .of_atom ⟨_, ?_, .unit hl hr⟩
  rfl

theorem recovered_tuple {as : List TypeExpr} {s : Span} (hlength : 2 ≤ as.length)
    (h : ∀ a ∈ as, ∀ ts, ts.map Token.kind = a.kinds → Recovered ts a)
    (hts : ts.map Token.kind = (TypeExpr.tuple as s).kinds) : Recovered ts (.tuple as s) := by
  obtain ⟨a, cs, rfl⟩ := List.exists_cons_of_length_pos (Nat.zero_lt_of_lt hlength)
  obtain ⟨b, as, rfl⟩ := List.exists_cons_of_length_pos (Nat.le_of_succ_le_succ hlength)
  obtain ⟨l, us, vs, r, rfl, hl, hus, hvs, hr⟩ := exists_bracketed_of_intercalate hts
  obtain ⟨ha, has⟩ := List.forall_mem_cons.1 h
  obtain ⟨a', ha', hda⟩ := (ha us hus).type
  obtain ⟨bs', hbs', hdb⟩ := recovers_elements has hvs
  obtain ⟨b', bs, rfl, hb, hbs⟩ := List.map_eq_cons_iff.1 hbs'
  refine .of_atom ⟨_, ?_, .tuple hl hda hdb hr⟩
  simp [ha', hb, hbs]

theorem recovered_record {fs : List (RecordField TypeExpr)} {s : Span}
    (hn : ∀ f ∈ fs, IsLowerName f.name)
    (h : ∀ f ∈ fs, ∀ ts, ts.map Token.kind = f.type.kinds → Recovered ts f.type)
    (hts : ts.map Token.kind = (TypeExpr.record fs s).kinds) : Recovered ts (.record fs s) := by
  cases fs with
  | nil =>
      obtain ⟨l, us, rfl, hl, hus⟩ := List.map_eq_cons_iff.1 hts
      obtain ⟨r, rfl, hr⟩ := List.map_eq_singleton_iff.1 hus
      refine .of_atom ⟨_, ?_, .emptyRecord hl hr⟩
      rfl
  | cons f fs =>
      obtain ⟨l, us, vs, r, rfl, hl, hus, hvs, hr⟩ := exists_bracketed_of_intercalate hts
      obtain ⟨hnf, hnfs⟩ := List.forall_mem_cons.1 hn
      obtain ⟨hf, hfs⟩ := List.forall_mem_cons.1 h
      obtain ⟨f', hf', hd⟩ := recovers_field hnf hf hus
      obtain ⟨fs', hfs', hds⟩ := recovers_fields hnfs hfs hvs
      refine .of_atom ⟨_, ?_, .record hl hd hds hr⟩
      simp [hf', hfs']

theorem recovered_extensible {base : String} {fs : List (RecordField TypeExpr)} {s : Span}
    (hbase : IsLowerName base) (hne : fs ≠ []) (hn : ∀ f ∈ fs, IsLowerName f.name)
    (h : ∀ f ∈ fs, ∀ ts, ts.map Token.kind = f.type.kinds → Recovered ts f.type)
    (hts : ts.map Token.kind = (TypeExpr.extensible base fs s).kinds) :
    Recovered ts (.extensible base fs s) := by
  obtain ⟨f, fs, rfl⟩ := List.exists_cons_of_ne_nil hne
  obtain ⟨l, us, rfl, hl, hus⟩ := List.map_eq_cons_iff.1 hts
  obtain ⟨m, us, rfl, hm, hus⟩ := List.map_eq_cons_iff.1 hus
  obtain ⟨t, us, vs, r, rfl, ht, hus, hvs, hr⟩ := exists_bracketed_of_intercalate hus
  obtain ⟨hnf, hnfs⟩ := List.forall_mem_cons.1 hn
  obtain ⟨hf, hfs⟩ := List.forall_mem_cons.1 h
  obtain ⟨f', hf', hd⟩ := recovers_field hnf hf hus
  obtain ⟨fs', hfs', hds⟩ := recovers_fields hnfs hfs hvs
  have hk := TokenKind.lowercaseName?_eq_some_iff.2 ⟨hm, hbase.isLowercase⟩
  refine .of_atom ⟨_, ?_, .extensible hl hk ht hd hds hr⟩
  simp [hf', hfs']

theorem recovered_function {domain codomain : TypeExpr} {s : Span}
    (hdomain : ∀ ts, ts.map Token.kind = domain.kinds → Recovered ts domain)
    (hcodomain : ∀ ts, ts.map Token.kind = codomain.kinds → Recovered ts codomain)
    (hts : ts.map Token.kind = (TypeExpr.function domain codomain s).kinds) :
    Recovered ts (.function domain codomain s) := by
  obtain ⟨us, vs, rfl, hus, hvs⟩ := List.map_eq_append_iff.1 hts
  obtain ⟨t, vs, rfl, ht, hvs⟩ := List.map_eq_cons_iff.1 hvs
  have hleft : Recovers us .application domain := by
    cases hf : domain.isFunction with
    | false => exact (hdomain us (by simpa [TypeExpr.bracket, hf] using hus)).application hf
    | true =>
        obtain ⟨a, ha, hd⟩ := recovers_bracket (fun ts h => (hdomain ts h).type) (hf ▸ hus)
        exact ⟨a, ha, .ofAtom hd⟩
  obtain ⟨a, ha, hda⟩ := hleft
  obtain ⟨b, hb, hdb⟩ := (hcodomain vs hvs).type
  refine ⟨⟨_, ?_, .function hda ht hdb⟩, by simp [TypeExpr.isFunction],
    by simp [TypeExpr.isCompound]⟩
  simp [ha, hb]

end

theorem TypeExpr.recovered_of_kinds {e : TypeExpr} (h : e.All WellNamed) :
    ∀ {ts : List Token}, ts.map Token.kind = e.kinds → Recovered ts e := by
  induction h with
  | @mk e hp _ ih =>
      intro ts hts
      cases e with
      | «variable» name s => exact recovered_variable hp hts
      | named n as s => exact recovered_named hp.1 hp.2 (fun a ha ts => ih a ha) hts
      | unit s => exact recovered_unit hts
      | tuple as s => exact recovered_tuple hp (fun a ha ts => ih a ha) hts
      | record fs s =>
          exact recovered_record hp (fun f hf ts => ih f.type (List.mem_map_of_mem hf)) hts
      | extensible base fs s =>
          exact recovered_extensible hp.1 hp.2.1 hp.2.2
            (fun f hf ts => ih f.type (List.mem_map_of_mem hf)) hts
      | function domain codomain s =>
          exact recovered_function (fun ts => ih domain (by simp [parts]))
            (fun ts => ih codomain (by simp [parts])) hts

end ElmTypes
