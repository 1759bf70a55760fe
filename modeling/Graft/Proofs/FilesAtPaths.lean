-- Files at the ends of paths. A file that is created or removed changes one
-- place only, and all paths lead where they led before. What a removal took
-- away is not found again at its path.
import Graft.Proofs.Places
import Graft.Proofs.Steps

namespace Graft

namespace Path

/-- The path ends in the name of a file. -/
def EndsIn (path name : String) : Prop := IsName name ∧ ∃ base, path = join base name

theorem endsIn_join {name : String} (h : IsName name) (base : String) :
    EndsIn (join base name) name := ⟨h, base, rfl⟩

theorem IsName.ne_up {name : String} (h : IsName name) : name ≠ ".." := by
  rintro rfl
  exact h.not_up rfl

end Path

namespace Files

/-! ## Where a path leads -/

namespace Store

variable {s t : Store} {q : Place} {path name : String}

/-- A path that asks for no directory leads where its walk ends. -/
theorem place_eq_walk (hempty : path.isEmpty = false) (hplain : Path.wantsDirectory path = false)
    (s : Store) (cwd : Place) (follow : Bool) :
    s.place cwd follow path =
      s.walk follow linkLimit (if Path.isAbsolute path then [] else cwd) (Path.parts path) := by
  unfold place
  rw [hempty, hplain]
  simp only [Bool.or_false, Bool.false_eq_true, if_false]
  split
  · rename_i hw
    exact hw.symm
  · rename_i hw
    rw [hw]
    split <;> rfl

theorem place_of_endsIn (h : Path.EndsIn path name) (s : Store) (cwd : Place) (follow : Bool) :
    s.place cwd follow path =
      s.walk follow linkLimit (if Path.isAbsolute path then [] else cwd) (Path.parts path) := by
  obtain ⟨hn, base, rfl⟩ := h
  exact place_eq_walk (Path.isEmpty_join hn base) (Path.wantsDirectory_join hn base) s cwd follow

/-- A walk to a place where a file can stand ends there, whether links are followed or
not. -/
theorem walk_follow {links : Nat} {here : Place} {names : List String}
    (h : s.walk false links here names = .ok q) (ho : s.IsOpen q) (follow : Bool) :
    s.walk follow links here names = .ok q :=
  walk_of_ways id id (fun hf => absurd hf (by decide)) (fun _ => .inr ho) h

end Store

namespace View

variable {v : View} {s : Store} {path name : String} {p q : Place} {e : Entry}

/-- The path leads to the place. A link at its end is not followed. -/
def Leads (v : View) (path : String) (q : Place) : Prop := v.store.place v.cwd false path = .ok q

/-- The path leads to the place, and this stands there, or nothing does. -/
def Has (v : View) (path : String) (q : Place) (e : Option Entry) : Prop :=
  v.Leads path q ∧ v.store.at? q = e

/-- The path leads to the place, and a file can stand there or stands there. -/
def Offers (v : View) (path : String) (q : Place) : Prop := v.Leads path q ∧ v.store.IsOpen q

/-- The path leads to the place, and a file stands there. -/
def Holds (v : View) (path : String) (q : Place) : Prop :=
  v.Leads path q ∧ ∃ bytes x, v.store.at? q = some (.file bytes x)

/-- No link stands where the path leads. -/
def HasNoLink (v : View) (path : String) : Prop :=
  ∀ q target, v.Leads path q → v.store.at? q ≠ some (.link target)

theorem Holds.offers (h : v.Holds path q) : v.Offers path q :=
  ⟨h.1, Store.isOpen_iff.mpr (.inr h.2)⟩

theorem Has.offers (h : v.Has path q none) : v.Offers path q :=
  ⟨h.1, Store.isOpen_iff.mpr (.inl h.2)⟩

theorem Leads.unique (hp : v.Leads path p) (hq : v.Leads path q) : p = q := by
  rw [Leads, hp] at hq
  cases hq
  rfl

theorem Leads.getLast? (hq : v.Leads path q) (h : Path.EndsIn path name) :
    q.getLast? = some name := by
  rw [Leads, Store.place_of_endsIn h] at hq
  obtain ⟨hn, base, rfl⟩ := h
  exact Store.getLast?_of_walk hn.ne_up (Path.getLast?_parts_join hn base) hq

theorem Leads.ne_root (hq : v.Leads path q) (h : Path.EndsIn path name) : q ≠ [] := by
  rintro rfl
  simpa using hq.getLast? h

theorem Leads.ne {name' : String} (hp : v.Leads path p) (h : Path.EndsIn path name)
    (hq : q.getLast? = some name') (hne : name ≠ name') : q ≠ p := by
  rintro rfl
  rw [hp.getLast? h] at hq
  exact hne (Option.some.inj hq)

/-- Files that come and go do not change where a path leads. -/
theorem Leads.of_sameWays (hq : v.Leads path q) (h : Path.EndsIn path name)
    (hw : v.store.SameWays s) : Leads ⟨s, v.cwd⟩ path q := by
  rw [Leads, Store.place_of_endsIn h] at hq ⊢
  exact Store.walk_of_sameWays hw hq

/-- A path from the root that names a directory and a file in it leads there. -/
theorem leads_of_parts {dir : String} (hn : Path.EndsIn path name)
    (habsolute : Path.isAbsolute path = true) (hparts : Path.parts path = [dir, name])
    (hup : dir ≠ "..") (hd : v.store.at? [dir] = some .directory)
    (ho : v.store.IsOpen [dir, name]) : v.Leads path [dir, name] := by
  unfold Leads
  rw [Store.place_of_endsIn hn, hparts, habsolute, if_pos rfl, Store.walk, if_neg hup,
    List.nil_append, hd]
  exact Store.walk_last hn.1.ne_up ho false _

/-- What can be removed where no link stands is a file. -/
theorem HasNoLink.isOpen (hl : v.HasNoLink path) (hq : v.Leads path q)
    (he : v.store.at? q = some e) (hd : e ≠ .directory) : v.store.IsOpen q := by
  cases e with
  | file bytes x => exact Store.isOpen_iff.mpr (.inr ⟨bytes, x, he⟩)
  | directory => exact absurd rfl hd
  | link target => exact absurd he (hl q target hq)

theorem Leads.find (hq : v.Leads path q) (h : Path.EndsIn path name) (ho : v.store.IsOpen q) :
    v.find path = (v.store.at? q).elim (.error .notFound) .ok := by
  unfold Leads at hq
  unfold View.find
  rw [Store.place_of_endsIn h] at hq ⊢
  rw [Store.walk_follow hq ho true]
  dsimp only
  cases v.store.at? q <;> rfl

theorem Leads.exists? (hq : v.Leads path q) (h : Path.EndsIn path name)
    (ho : v.store.IsOpen q) : v.exists? path = (v.store.at? q).isSome := by
  unfold View.exists?
  rw [hq.find h ho]
  cases v.store.at? q <;> rfl

/-- Where a file can stand, a path leads to something only if a file stands there. -/
theorem Offers.holds_iff (hq : v.Offers path q) (h : Path.EndsIn path name) :
    v.Holds path q ↔ v.exists? path = true := by
  rw [hq.1.exists? h hq.2]
  rcases Store.isOpen_iff.mp hq.2 with hn | ⟨bytes, x, hf⟩
  · simp [Holds, hn]
  · simp [Holds, hf, hq.1]

theorem exists?_of_isFile (h : v.isFile path = true) : v.exists? path = true := by
  unfold isFile at h
  unfold View.exists?
  split at h
  · rename_i hf
    rw [hf]
    rfl
  · cases h

theorem create_eq_ok_iff {bytes : List UInt8} :
    v.create path bytes = .ok s ↔
      ∃ q, v.Leads path q ∧ v.store.at? q = none ∧ s = v.store.put q (.file bytes false) := by
  unfold create Leads
  cases v.store.place v.cwd false path with
  | error fault => simp
  | ok p =>
    cases hp : v.store.at? p with
    | none => simp [hp, eq_comm]
    | some e => simp [hp]

theorem Leads.create_taken (hq : v.Leads path q) (he : v.store.at? q = some e)
    (bytes : List UInt8) : v.create path bytes = .error .alreadyExists := by
  unfold create
  rw [hq]
  simp [he]

theorem remove_eq_ok_iff :
    v.remove path = .ok s ↔
      ∃ q e, v.Leads path q ∧ v.store.at? q = some e ∧ e ≠ .directory ∧ s = v.store.erase q := by
  unfold remove Leads
  cases v.store.place v.cwd false path with
  | error fault => simp
  | ok p =>
    cases hp : v.store.at? p with
    | none => simp [hp]
    | some e =>
      cases e <;> simp [hp, eq_comm]

/-! ## Reading a text back -/

theorem toList_loop (b : ByteArray) (i : Nat) (r : List UInt8) :
    ByteArray.toList.loop b i r = r.reverse ++ b.data.toList.drop i := by
  fun_induction ByteArray.toList.loop b i r with
  | case1 i r hi ih =>
    have hi' : i < b.data.toList.length := hi
    have hget : b.get! i = b.data.toList[i] := by
      unfold ByteArray.get!
      exact getElem!_pos b.data i hi
    rw [ih, List.drop_eq_getElem_cons hi', hget, List.reverse_cons, List.append_assoc]
    rfl
  | case2 i r hi =>
    have hi' : b.data.toList.length ≤ i := Nat.le_of_not_lt hi
    rw [List.drop_eq_nil_of_le hi', List.append_nil]

/-- The bytes of a text are those of its characters. -/
theorem encode_ofList (cs : List Char) :
    encode (String.ofList cs) = cs.flatMap String.utf8EncodeChar := by
  unfold encode ByteArray.toList
  rw [toList_loop]
  show ((String.ofList cs).toByteArray.data.toList) = _
  rw [String.toByteArray_ofList, List.utf8Encode, List.toList_data_toByteArray]

/-- The bytes of a text read as the text again. -/
theorem decode?_encode (text : String) : decode? (encode text) = some text := by
  have hbytes : (⟨(encode text).toArray⟩ : ByteArray) = text.toByteArray := by
    unfold encode ByteArray.toList
    rw [toList_loop]
    rfl
  unfold decode? String.fromUTF8?
  rw [hbytes, dif_pos text.isValidUTF8]
  rfl

theorem readText_of_find {v : View} {path text : String} {executable : Bool}
    (h : v.find path = .ok (.file (encode text) executable)) : v.readText path = .ok text := by
  unfold readText readBytes
  rw [h]
  dsimp only
  rw [decode?_encode]

end View
end Files

/-! ## Steps that create and remove -/

namespace Act

open Files

variable (h : Host) (w : World) {path : String} {q : Place} {e : Entry} {bytes : List UInt8}

/-- A removal that fails changes nothing. One that does not fail takes away the file or
link at the path, and nothing else. -/
theorem perform_removeFile_cases (path : String) :
    (∃ fault, ((removeFile path).perform h w).1 = .error fault ∧
        ((removeFile path).perform h w).2.view = w.view) ∨
      ((removeFile path).perform h w).1 = .ok () ∧
        ∃ q e, w.view.Leads path q ∧ w.store.at? q = some e ∧ e ≠ .directory ∧
          ((removeFile path).perform h w).2.view = ⟨w.store.erase q, w.cwd⟩ := by
  unfold removeFile
  rw [perform_ofFunction]
  dsimp only
  split
  · exact .inl ⟨_, rfl, rfl⟩
  · split
    · exact .inl ⟨_, rfl, rfl⟩
    · rename_i hr
      obtain ⟨q, e, hq, he, hd, rfl⟩ := View.remove_eq_ok_iff.mp hr
      exact .inr ⟨rfl, q, e, hq, he, hd, rfl⟩

theorem perform_removeFile_of_at? (hr : ∀ n, h.refusesRemoval n path = none)
    (hq : w.view.Leads path q) (he : w.store.at? q = some e) (hd : e ≠ .directory) :
    ((removeFile path).perform h w).1 = .ok () ∧
      ((removeFile path).perform h w).2.view = ⟨w.store.erase q, w.cwd⟩ := by
  have hv : (w.record (.removing path)).view.remove path = .ok (w.store.erase q) :=
    View.remove_eq_ok_iff.mpr ⟨q, e, hq, he, hd, rfl⟩
  unfold removeFile
  rw [perform_ofFunction]
  dsimp only
  rw [hr, hv]
  exact ⟨rfl, rfl⟩

/-- A creation that fails changes nothing. One that does not fail puts a file where nothing
stood, and it holds all bytes if nothing went wrong. -/
theorem perform_createFile_cases (path : String) (bytes : List UInt8) :
    (∃ fault, ((createFile path bytes).perform h w).1 = .error fault ∧
        ((createFile path bytes).perform h w).2.view = w.view) ∨
      ∃ written q kept, ((createFile path bytes).perform h w).1 = .ok written ∧
        w.view.Leads path q ∧ w.store.at? q = none ∧
        ((createFile path bytes).perform h w).2.view =
          ⟨w.store.put q (.file kept false), w.cwd⟩ ∧
        (written = .whole → kept = bytes) := by
  unfold createFile
  rw [perform_ofFunction]
  dsimp only
  split
  · exact .inl ⟨_, rfl, rfl⟩
  · rename_i hc
    obtain ⟨q, hq, hn, rfl⟩ := View.create_eq_ok_iff.mp hc
    split
    · exact .inr ⟨.whole, q, bytes, rfl, hq, hn, rfl, fun _ => rfl⟩
    · split
      · exact .inl ⟨_, rfl, rfl⟩
      · rename_i n _ _ _ hpart
        obtain ⟨q', hq', -, rfl⟩ := View.create_eq_ok_iff.mp hpart
        cases hq.unique hq'
        exact .inr ⟨.partly _, q, bytes.take n, rfl, hq, hn, rfl, by simp⟩

theorem perform_createFile_of_none (hr : ∀ n, h.refusesWrite n path = none)
    (hq : w.view.Leads path q) (he : w.store.at? q = none) (bytes : List UInt8) :
    ((createFile path bytes).perform h w).1 = .ok .whole := by
  have hv : (w.record (.creating path)).view.create path bytes =
      .ok (w.store.put q (.file bytes false)) := View.create_eq_ok_iff.mpr ⟨q, hq, he, rfl⟩
  unfold createFile
  rw [perform_ofFunction]
  dsimp only
  rw [hv, hr]

theorem perform_createFile_of_at? (hq : w.view.Leads path q) (he : w.store.at? q = some e)
    (bytes : List UInt8) :
    ((createFile path bytes).perform h w).1 = .error .alreadyExists ∧
      ((createFile path bytes).perform h w).2.view = w.view := by
  have hv : (w.record (.creating path)).view.create path bytes = .error .alreadyExists :=
    View.Leads.create_taken (v := w.view) hq he bytes
  unfold createFile
  rw [perform_ofFunction]
  dsimp only
  rw [hv]
  exact ⟨rfl, rfl⟩

/-! ## Steps that ask nothing of the build tool -/

theorem asks_launch (l : Launch) : ((launch l).perform h w).2.asks = w.asks := by
  have ha := (w.alike_record (e := .launched l) rfl).asks
  unfold launch
  rw [perform_ofFunction]
  dsimp only
  split <;> exact ha

end Act
end Graft
