import Icmpenguin.Status

/-!
# Icmpenguin — the JNI layer

`JNI_OnLoad` resolves the eight entries of `JNI_methods` (the callback method and the
seven `ProbeResult` constructors), holding each class through a global reference;
`clear_jni_global_refs` releases them, on a failed `GetMethodID` and in `JNI_OnUnload`.
`trigger_callback` makes local references for the strings and arrays of a result, the
result object itself, and attaches the worker thread for the call.

`ProbeManager_create` holds the Kotlin object through one more global reference, which
`ProbeManager_delete` releases through the manager's `callback_obj`.

`Vm` is what the JVM keeps of the library: its live global references, the live local
references of the current thread, whether that thread is attached, and whether the
library ever made a call JNI forbids. What the JVM answers (which classes and methods
exist, whether an allocation succeeds) is an argument. An allocation that fails returns
`nullptr` and leaves an exception pending; `trigger_callback` goes on with
`SetByteArrayRegion` and `NewObject` regardless, calls JNI forbids while an exception is
pending. With every allocation succeeding it makes none, and releases every local
reference it made.
-/

namespace Icmpenguin

/-! ## The JVM's references -/

/-- What the JVM keeps for the library. Every live reference is below `fresh`, the next
number it hands out; `misuse` records a call JNI forbids: the release of a reference that
is not live, or, with an exception pending, any call but the release and exception
calls. -/
structure Vm where
  globals : List Nat
  locals : List Nat
  fresh : Nat
  attached : Bool
  misuse : Bool
  globals_lt : ∀ r ∈ globals, r < fresh
  locals_lt : ∀ r ∈ locals, r < fresh

namespace Vm

theorem lt_fresh_succ {l : List Nat} {n : Nat} (h : ∀ r ∈ l, r < n) : ∀ r ∈ n :: l, r < n + 1 := by
  intro r hr
  rcases List.mem_cons.1 hr with rfl | hr
  exacts [Nat.lt_succ_self r, Nat.lt_succ_of_lt (h r hr)]

theorem lt_of_erase {l : List Nat} {n x : Nat} (h : ∀ r ∈ l, r < n) : ∀ r ∈ l.erase x, r < n :=
  fun r hr => h r (List.mem_of_mem_erase hr)

/-- `NewGlobalRef`: a fresh global reference. -/
def newGlobal (vm : Vm) : Nat × Vm :=
  (vm.fresh, { vm with globals := vm.fresh :: vm.globals, fresh := vm.fresh + 1,
                       globals_lt := lt_fresh_succ vm.globals_lt,
                       locals_lt := fun r hr => Nat.lt_succ_of_lt (vm.locals_lt r hr) })

/-- `DeleteGlobalRef`. -/
def deleteGlobal (vm : Vm) (r : Nat) : Vm :=
  if r ∈ vm.globals then { vm with globals := vm.globals.erase r, globals_lt := lt_of_erase vm.globals_lt }
  else { vm with misuse := true }

/-- A call that returns a new local reference (`FindClass`, `NewStringUTF`, `NewByteArray`,
`NewObject`): a fresh one, or `nullptr` when the JVM says it fails. -/
def newLocal (vm : Vm) (ok : Nat → Bool) : Option Nat × Vm :=
  if ok vm.fresh then
    (some vm.fresh, { vm with locals := vm.fresh :: vm.locals, fresh := vm.fresh + 1,
                              globals_lt := fun r hr => Nat.lt_succ_of_lt (vm.globals_lt r hr),
                              locals_lt := lt_fresh_succ vm.locals_lt })
  else (none, vm)

/-- `DeleteLocalRef`; `nullptr` is allowed and does nothing. -/
def deleteLocal (vm : Vm) : Option Nat → Vm
  | none => vm
  | some r =>
    if r ∈ vm.locals then { vm with locals := vm.locals.erase r, locals_lt := lt_of_erase vm.locals_lt }
    else { vm with misuse := true }

/-- A JNI call other than the release and exception calls (`SetByteArrayRegion`,
`NewObject`, ...), with `pending` telling whether an exception is pending: with one pending
the call is forbidden. -/
def check (vm : Vm) (pending : Bool) : Vm := if pending then { vm with misuse := true } else vm

/-- A call that returns a new local reference, with `pending` telling whether an exception
is pending: forbidden with one pending, after which the model goes on as if it returned
`nullptr`; otherwise `newLocal`, whose `nullptr` leaves an exception pending. The
reference, whether an exception is pending after the call, and the JVM. -/
def newLocalIn (vm : Vm) (pending : Bool) (ok : Nat → Bool) : Option Nat × Bool × Vm :=
  if pending then (none, true, vm.check true)
  else ((vm.newLocal ok).1, (vm.newLocal ok).1.isNone, (vm.newLocal ok).2)

section Fields

variable (vm : Vm) {ok : Nat → Bool}

@[simp] theorem newGlobal_fst : vm.newGlobal.1 = vm.fresh := rfl
@[simp] theorem newGlobal_globals : vm.newGlobal.2.globals = vm.fresh :: vm.globals := rfl
@[simp] theorem newGlobal_locals : vm.newGlobal.2.locals = vm.locals := rfl
@[simp] theorem newGlobal_misuse : vm.newGlobal.2.misuse = vm.misuse := rfl
@[simp] theorem newGlobal_attached : vm.newGlobal.2.attached = vm.attached := rfl

theorem newLocal_ok (h : ok vm.fresh = true) :
    vm.newLocal ok = (some vm.fresh, (vm.newLocal ok).2) := by
  simp [newLocal, h]

theorem newLocal_locals_ok (h : ok vm.fresh = true) :
    (vm.newLocal ok).2.locals = vm.fresh :: vm.locals := by
  simp [newLocal, h]

@[simp] theorem newLocal_globals : (vm.newLocal ok).2.globals = vm.globals := by
  unfold newLocal; split <;> rfl
@[simp] theorem newLocal_misuse : (vm.newLocal ok).2.misuse = vm.misuse := by
  unfold newLocal; split <;> rfl
@[simp] theorem newLocal_attached : (vm.newLocal ok).2.attached = vm.attached := by
  unfold newLocal; split <;> rfl

/-- Releasing a live local reference. -/
theorem deleteLocal_mem {r : Nat} (h : r ∈ vm.locals) :
    (vm.deleteLocal (some r)).locals = vm.locals.erase r ∧
    (vm.deleteLocal (some r)).misuse = vm.misuse := by
  simp [deleteLocal, h]

@[simp] theorem deleteLocal_globals (r : Option Nat) : (vm.deleteLocal r).globals = vm.globals := by
  cases r
  · rfl
  · simp only [deleteLocal]; split <;> rfl
@[simp] theorem deleteLocal_attached (r : Option Nat) :
    (vm.deleteLocal r).attached = vm.attached := by
  cases r
  · rfl
  · simp only [deleteLocal]; split <;> rfl
@[simp] theorem deleteLocal_fresh (r : Option Nat) : (vm.deleteLocal r).fresh = vm.fresh := by
  cases r
  · rfl
  · simp only [deleteLocal]; split <;> rfl

@[simp] theorem check_false : vm.check false = vm := rfl

/-- With no exception pending and the JVM granting the allocation, a fresh reference and no
exception. -/
theorem newLocalIn_ok (h : ok vm.fresh = true) :
    vm.newLocalIn false ok = (some vm.fresh, false, (vm.newLocal ok).2) := by
  simp [newLocalIn, newLocal, h]

end Fields

end Vm

/-! ## `JNI_methods` -/

/-- `struct JNIMethodInfo`; `none` is `nullptr`. -/
structure JniMethodInfo where
  mid : Option Nat
  cls : Option Nat
  className : String
  methodName : String
  methodSig : String
  deriving DecidableEq, Repr, Inhabited

/-- `JNI_methods` as the library is loaded: the callback, then the constructors of
`ProbeResult.Success`, `Timeout`, `ConnectionRefused`, `HostUnreachable`, `NetUnreachable`,
`NetError` and `Unknown`. -/
def jniMethods : List JniMethodInfo :=
  [⟨none, none, "me/impa/icmpenguin/ProbeManager", "probeCallback",
      "(ILme/impa/icmpenguin/ProbeResult;)V"⟩,
   ⟨none, none, "me/impa/icmpenguin/ProbeResult$Success", "<init>",
      "(ILjava/lang/String;IIII[B)V"⟩,
   ⟨none, none, "me/impa/icmpenguin/ProbeResult$Timeout", "<init>",
      "(ILjava/lang/String;II)V"⟩,
   ⟨none, none, "me/impa/icmpenguin/ProbeResult$ConnectionRefused", "<init>",
      "(ILjava/lang/String;IILjava/lang/String;I)V"⟩,
   ⟨none, none, "me/impa/icmpenguin/ProbeResult$HostUnreachable", "<init>",
      "(ILjava/lang/String;IILjava/lang/String;I)V"⟩,
   ⟨none, none, "me/impa/icmpenguin/ProbeResult$NetUnreachable", "<init>",
      "(ILjava/lang/String;IILjava/lang/String;I)V"⟩,
   ⟨none, none, "me/impa/icmpenguin/ProbeResult$NetError", "<init>",
      "(ILjava/lang/String;IILjava/lang/String;IIII)V"⟩,
   ⟨none, none, "me/impa/icmpenguin/ProbeResult$Unknown", "<init>",
      "(ILjava/lang/String;IILjava/lang/String;)V"⟩]

/-- `JNI_ERR` -/
def jniErr : Int := -1

/-- `JNI_VERSION_1_6` -/
def jniVersion16 : Int := 0x00010006

/-- What the JVM answers `JNI_OnLoad` and `JNI_OnUnload`: whether `GetEnv` succeeds, whether
`FindClass` finds a class, and the ID `GetMethodID` returns (`none` for `nullptr`). -/
structure LoadEnv where
  getEnvOk : Bool
  findClass : String → Bool
  getMethodId : String → String → String → Option Nat

/-- `clear_jni_global_refs`: `DeleteGlobalRef` on each class reference that is set, in
table order, and `nullptr` in its place. -/
def clearJniGlobalRefs (ms : List JniMethodInfo) (vm : Vm) : List JniMethodInfo × Vm :=
  (ms.map fun e => { e with cls := none }, (ms.filterMap (·.cls)).foldl Vm.deleteGlobal vm)

/-- The loop of `JNI_OnLoad` over the entries `rest` after the entries `done`: `FindClass`,
`NewGlobalRef`, `DeleteLocalRef` and `GetMethodID` for each, returning `JNI_ERR` at the
first class not found, and clearing every class reference first at the first method not
found. -/
def onLoadLoop (env : LoadEnv) (done : List JniMethodInfo) :
    List JniMethodInfo → Vm → Int × List JniMethodInfo × Vm
  | [], vm => (jniVersion16, done, vm)
  | e :: rest, vm =>
    match vm.newLocal fun _ => env.findClass e.className with
    | (none, vm) => (jniErr, done ++ e :: rest, vm)
    | (some c, vm) =>
      let e := { e with cls := some vm.fresh,
                        mid := env.getMethodId e.className e.methodName e.methodSig }
      let vm := vm.newGlobal.2.deleteLocal (some c)
      match e.mid with
      | none =>
        let r := clearJniGlobalRefs (done ++ e :: rest) vm
        (jniErr, r.1, r.2)
      | some _ => onLoadLoop env (done ++ [e]) rest vm

/-- The library's JNI globals: whether `java_vm` is set, and `JNI_methods`. -/
structure JniLib where
  javaVm : Bool
  methods : List JniMethodInfo

/-- The library as the loader maps it. -/
def jniLoaded : JniLib := ⟨false, jniMethods⟩

/-- `JNI_OnLoad` -/
def jniOnLoad (env : LoadEnv) (lib : JniLib) (vm : Vm) : Int × JniLib × Vm :=
  if env.getEnvOk then
    let r := onLoadLoop env [] lib.methods vm
    (r.1, ⟨true, r.2.1⟩, r.2.2)
  else (jniErr, { lib with javaVm := true }, vm)

/-- `JNI_OnUnload` -/
def jniOnUnload (env : LoadEnv) (lib : JniLib) (vm : Vm) : JniLib × Vm :=
  if env.getEnvOk then
    let r := clearJniGlobalRefs lib.methods vm
    ({ lib with methods := r.1 }, r.2)
  else (lib, vm)

/-- A JVM that has every class and method the table names. -/
def fullEnv : LoadEnv := ⟨true, fun _ => true, fun _ _ _ => some 1⟩

/-- A JVM that holds no reference of the library yet. -/
def emptyVm : Vm :=
  ⟨[], [], 0, false, false, fun r h => absurd h (List.not_mem_nil r),
    fun r h => absurd h (List.not_mem_nil r)⟩

/-! ## Global references over a load -/

theorem Vm.deleteGlobal_of_mem {vm : Vm} {r : Nat} (h : r ∈ vm.globals) :
    vm.deleteGlobal r =
      { vm with globals := vm.globals.erase r, globals_lt := Vm.lt_of_erase vm.globals_lt } :=
  if_pos h

/-- Releasing live references once each: no misuse, and the others stay live. -/
theorem foldl_deleteGlobal {G : List Nat} : ∀ (xs : List Nat) (vm : Vm),
    vm.globals.Perm (xs ++ G) →
    (xs.foldl Vm.deleteGlobal vm).globals.Perm G ∧
    (xs.foldl Vm.deleteGlobal vm).misuse = vm.misuse ∧
    (xs.foldl Vm.deleteGlobal vm).locals = vm.locals
  | [], _, h => ⟨h, rfl, rfl⟩
  | x :: xs, vm, h => by
    have hx : x ∈ vm.globals := h.symm.subset (List.mem_cons_self _ _)
    have ih := foldl_deleteGlobal xs (vm.deleteGlobal x)
      (by rw [Vm.deleteGlobal_of_mem hx]; simpa using h.erase x)
    rw [List.foldl_cons]
    rw [Vm.deleteGlobal_of_mem hx] at ih ⊢
    exact ih

/-- `clear_jni_global_refs` on a table whose class references are live releases each once
and leaves none in the table. -/
theorem clearJniGlobalRefs_refs {ms : List JniMethodInfo} {vm : Vm} {G : List Nat}
    (h : vm.globals.Perm (ms.filterMap (·.cls) ++ G)) :
    (∀ e ∈ (clearJniGlobalRefs ms vm).1, e.cls = none) ∧
    (clearJniGlobalRefs ms vm).2.globals.Perm G ∧
    (clearJniGlobalRefs ms vm).2.misuse = vm.misuse ∧
    (clearJniGlobalRefs ms vm).2.locals = vm.locals := by
  refine ⟨fun e he => ?_, foldl_deleteGlobal _ vm h⟩
  obtain ⟨e', -, rfl⟩ := List.mem_map.1 he
  rfl

theorem filterMap_cls_of_none {ms : List JniMethodInfo} (h : ∀ e ∈ ms, e.cls = none) :
    ms.filterMap (·.cls) = [] :=
  List.filterMap_eq_nil_iff.2 h

/-- On a table that holds no class reference, `clear_jni_global_refs` does nothing. -/
theorem clearJniGlobalRefs_of_none {ms : List JniMethodInfo} {vm : Vm}
    (h : ∀ e ∈ ms, e.cls = none) : clearJniGlobalRefs ms vm = (ms, vm) := by
  have hm : ms.map (fun e => { e with cls := none }) = ms := by
    conv_rhs => rw [← List.map_id ms]
    refine List.map_congr_left fun e he => ?_
    have := h e he
    cases e
    simp_all
  simp [clearJniGlobalRefs, filterMap_cls_of_none h, hm]

section Load

variable (env : LoadEnv)

/-- The loop of `JNI_OnLoad`, from entries `done` that are resolved and entries `rest` that
hold no class. -/
theorem onLoadLoop_refs {G : List Nat} : ∀ (done rest : List JniMethodInfo) (vm : Vm),
    (∀ e ∈ done, e.cls.isSome ∧ e.mid.isSome) → (∀ e ∈ rest, e.cls = none) →
    vm.globals.Perm (done.filterMap (·.cls) ++ G) →
    (onLoadLoop env done rest vm).2.2.misuse = vm.misuse ∧
    (onLoadLoop env done rest vm).2.2.locals = vm.locals ∧
    (onLoadLoop env done rest vm).2.2.globals.Perm
      ((onLoadLoop env done rest vm).2.1.filterMap (·.cls) ++ G) ∧
    ((onLoadLoop env done rest vm).1 = jniVersion16 ↔
      ∀ e ∈ (onLoadLoop env done rest vm).2.1, e.cls.isSome ∧ e.mid.isSome) ∧
    ((onLoadLoop env done rest vm).1 ≠ jniVersion16 →
      (onLoadLoop env done rest vm).1 = jniErr ∧
      ((∀ e ∈ (onLoadLoop env done rest vm).2.1, e.cls = none) ∨
        ∃ e ∈ (onLoadLoop env done rest vm).2.1, e.cls = none ∧ env.findClass e.className = false))
  | done, [], vm, hd, _, hg =>
    ⟨rfl, rfl, hg, iff_of_true rfl hd, fun h => absurd rfl h⟩
  | done, e :: rest, vm, hd, hr, hg => by
    have he : e.cls = none := hr e (List.mem_cons_self _ _)
    have hrest : ∀ e ∈ rest, e.cls = none := fun e' h => hr e' (List.mem_cons_of_mem _ h)
    have herr : jniErr ≠ jniVersion16 := by decide
    cases hf : env.findClass e.className
    · -- `FindClass` returns `nullptr`
      have hstep : onLoadLoop env done (e :: rest) vm = (jniErr, done ++ e :: rest, vm) := by
        simp [onLoadLoop, Vm.newLocal, hf]
      have hfm : (done ++ e :: rest).filterMap (·.cls) = done.filterMap (·.cls) := by
        simp [List.filterMap_append, he, filterMap_cls_of_none hrest]
      rw [hstep]
      refine ⟨rfl, rfl, by rw [hfm]; exact hg, iff_of_false herr fun h => ?_,
        fun _ => ⟨rfl, .inr ⟨e, by simp, he, hf⟩⟩⟩
      simpa [he] using h e (by simp)
    · -- the class is found and held through a global reference
      rw [onLoadLoop, Vm.newLocal_ok vm hf]
      dsimp only
      have hl₁ : (vm.newLocal fun _ => env.findClass e.className).2.locals =
          vm.fresh :: vm.locals := Vm.newLocal_locals_ok vm hf
      have hg₁ : (vm.newLocal fun _ => env.findClass e.className).2.globals = vm.globals :=
        Vm.newLocal_globals vm
      have hm₁ : (vm.newLocal fun _ => env.findClass e.className).2.misuse = vm.misuse :=
        Vm.newLocal_misuse vm
      generalize (vm.newLocal fun _ => env.findClass e.className).2 = vm₁ at hl₁ hg₁ hm₁
      obtain ⟨hl₂, hm₂⟩ := Vm.deleteLocal_mem vm₁.newGlobal.2 (r := vm.fresh) (by simp [hl₁])
      have hg₂ := Vm.deleteLocal_globals vm₁.newGlobal.2 (some vm.fresh)
      generalize vm₁.newGlobal.2.deleteLocal (some vm.fresh) = vm₂ at hl₂ hm₂ hg₂
      simp only [Vm.newGlobal_locals, hl₁, List.erase_cons_head, Vm.newGlobal_misuse, hm₁,
        Vm.newGlobal_globals, hg₁] at hl₂ hm₂ hg₂
      set e' : JniMethodInfo :=
        { e with cls := some vm₁.fresh, mid := env.getMethodId e.className e.methodName e.methodSig }
      have hfm : (done ++ e' :: rest).filterMap (·.cls) = done.filterMap (·.cls) ++ [vm₁.fresh] := by
        simp [List.filterMap_append, e', filterMap_cls_of_none hrest]
      have hg' : vm₂.globals.Perm ((done.filterMap (·.cls) ++ [vm₁.fresh]) ++ G) := by
        rw [hg₂, List.append_assoc, List.singleton_append]
        exact (hg.cons _).trans List.perm_middle.symm
      cases hm : env.getMethodId e.className e.methodName e.methodSig with
      | none =>
        -- `GetMethodID` returns `nullptr`: every class reference is released
        obtain ⟨hnone, hgc, hmc, hlc⟩ := clearJniGlobalRefs_refs
          (show vm₂.globals.Perm ((done ++ e' :: rest).filterMap (·.cls) ++ G) by
            rw [hfm]; exact hg')
        refine ⟨hmc.trans hm₂, hlc.trans hl₂, by rw [filterMap_cls_of_none hnone]; exact hgc,
          iff_of_false herr fun h => ?_, fun _ => ⟨rfl, .inl hnone⟩⟩
        have hmem : { e' with cls := none } ∈ (clearJniGlobalRefs (done ++ e' :: rest) vm₂).1 :=
          List.mem_map.2 ⟨e', by simp, rfl⟩
        simpa using (h _ hmem).1
      | some m =>
        have hd' : ∀ x ∈ done ++ [e'], x.cls.isSome ∧ x.mid.isSome := by
          intro x hx
          rcases List.mem_append.1 hx with hx | hx
          · exact hd x hx
          · rw [List.mem_singleton.1 hx]; simp [e', hm]
        obtain ⟨h₁, h₂, h₃, h₄, h₅⟩ := onLoadLoop_refs (done ++ [e']) rest vm₂ hd' hrest
          (by rw [List.filterMap_append]; simpa using hg')
        exact ⟨h₁.trans hm₂, h₂.trans hl₂, h₃, h₄, h₅⟩

/-- The loop of `JNI_OnLoad` keeps the table's size. -/
theorem onLoadLoop_length : ∀ (done rest : List JniMethodInfo) (vm : Vm),
    (onLoadLoop env done rest vm).2.1.length = done.length + rest.length
  | done, [], vm => by simp [onLoadLoop]
  | done, e :: rest, vm => by
    cases hf : env.findClass e.className
    · simp [onLoadLoop, Vm.newLocal, hf]
    · rw [onLoadLoop, Vm.newLocal_ok vm hf]
      dsimp only
      split
      · simp [clearJniGlobalRefs]
      · rw [onLoadLoop_length]
        simp only [List.length_append, List.length_singleton, List.length_cons, List.length_nil]
        omega

theorem jniMethods_cls_none : ∀ e ∈ jniMethods, e.cls = none := by decide

/-- A load releases nothing that is not live, holds the class references it stored on top of
those before, and on success has resolved every entry. -/
theorem jniOnLoad_globals (vm : Vm) :
    (jniOnLoad env jniLoaded vm).2.2.misuse = vm.misuse ∧
    (jniOnLoad env jniLoaded vm).2.2.locals = vm.locals ∧
    (jniOnLoad env jniLoaded vm).2.2.globals.Perm
      ((jniOnLoad env jniLoaded vm).2.1.methods.filterMap (·.cls) ++ vm.globals) ∧
    ((jniOnLoad env jniLoaded vm).1 = jniVersion16 →
      ∀ e ∈ (jniOnLoad env jniLoaded vm).2.1.methods, e.cls.isSome ∧ e.mid.isSome) := by
  unfold jniOnLoad
  split
  · obtain ⟨hm, hl, hg, hv, -⟩ :=
      onLoadLoop_refs env (G := vm.globals) [] jniMethods vm (by simp) jniMethods_cls_none
        (by simp)
    exact ⟨hm, hl, hg, hv.1⟩
  · exact ⟨rfl, rfl, by simp [jniLoaded, filterMap_cls_of_none jniMethods_cls_none],
      fun h => absurd h (show jniErr ≠ jniVersion16 by decide)⟩

/-- `JNI_OnLoad` on the library as the loader maps it, whatever the JVM answers: it releases
every local reference it makes and never releases a reference that is not live; the global
references it leaves live are exactly the class references left in `JNI_methods`; and it
returns `JNI_VERSION_1_6` exactly when every entry has its class and its method. When it
returns `JNI_ERR`, the table holds no class reference, or stopped at a class `FindClass`
did not find: then the class references of the entries before it stay live, and since the
JVM does not run `JNI_OnUnload` after a failed load, nothing releases them. -/
theorem jniOnLoad_refs (vm : Vm) :
    (jniOnLoad env jniLoaded vm).2.2.misuse = vm.misuse ∧
    (jniOnLoad env jniLoaded vm).2.2.locals = vm.locals ∧
    (jniOnLoad env jniLoaded vm).2.2.globals.Perm
      ((jniOnLoad env jniLoaded vm).2.1.methods.filterMap (·.cls) ++ vm.globals) ∧
    ((jniOnLoad env jniLoaded vm).1 = jniVersion16 ↔
      ∀ e ∈ (jniOnLoad env jniLoaded vm).2.1.methods, e.cls.isSome ∧ e.mid.isSome) ∧
    ((jniOnLoad env jniLoaded vm).1 ≠ jniVersion16 →
      (jniOnLoad env jniLoaded vm).1 = jniErr ∧
      ((∀ e ∈ (jniOnLoad env jniLoaded vm).2.1.methods, e.cls = none) ∨
        ∃ e ∈ (jniOnLoad env jniLoaded vm).2.1.methods,
          e.cls = none ∧ env.findClass e.className = false)) := by
  have hnone := jniMethods_cls_none
  unfold jniOnLoad
  split
  · exact onLoadLoop_refs env [] jniMethods vm (by simp) hnone (by simp)
  · refine ⟨rfl, rfl, by simp [jniLoaded, filterMap_cls_of_none hnone],
      iff_of_false (show jniErr ≠ jniVersion16 by decide) fun h => ?_, fun _ => ⟨rfl, .inl hnone⟩⟩
    simpa [hnone] using h _ (List.mem_cons_self _ _)

/-- `JNI_OnLoad` and then `JNI_OnUnload`, whatever the JVM answers the load: when `GetEnv`
succeeds for the unload, every global reference the load left live is released, once, the
JVM is back to the global references it had, and `JNI_methods` holds no class; a second
`clear_jni_global_refs` then releases nothing. -/
theorem jni_load_unload (vm : Vm) (env' : LoadEnv) (hu : env'.getEnvOk = true) :
    let l := jniOnLoad env jniLoaded vm
    let u := jniOnUnload env' l.2.1 l.2.2
    u.2.misuse = vm.misuse ∧ u.2.globals.Perm vm.globals ∧ (∀ e ∈ u.1.methods, e.cls = none) ∧
    clearJniGlobalRefs u.1.methods u.2 = (u.1.methods, u.2) := by
  obtain ⟨hm, -, hg, -⟩ := jniOnLoad_globals env vm
  obtain ⟨hnone, hgc, hmc, -⟩ := clearJniGlobalRefs_refs hg
  simp only [jniOnUnload, hu, if_true]
  exact ⟨hmc.trans hm, hgc, hnone, clearJniGlobalRefs_of_none hnone⟩

end Load

/-- `FindClass` misses the fifth class, `ProbeResult$HostUnreachable`: `JNI_OnLoad` returns
`JNI_ERR` with the four class references before it still live. -/
example :
    let l := jniOnLoad ⟨true, fun c => c ≠ "me/impa/icmpenguin/ProbeResult$HostUnreachable",
      fun _ _ _ => some 1⟩ jniLoaded emptyVm
    l.1 = jniErr ∧ l.2.2.globals.length = 4 := by
  decide

/-! ## The manager's reference to its Kotlin object -/

/-- `Java_me_impa_icmpenguin_ProbeManager_create`: `NewGlobalRef(thiz)` is made before the
constructor runs, and the constructor stores it in `callback_obj` beside `trigger_callback`,
on the path `construct` marks with `callbackSet`; when it returns early, `callback_obj`
keeps its `nullptr` default. The manager is its configuration and that field: `start` and
the UTF string copies touch no reference. -/
def jniCreate (pton : Int → String → Bool) (remoteIp sourceIp : String) (ident : Int)
    (vm : Vm) : (Config × Option Nat) × Vm :=
  let cfg := construct pton remoteIp sourceIp ident
  ((cfg, if cfg.callbackSet then some vm.newGlobal.1 else none), vm.newGlobal.2)

/-- `Java_me_impa_icmpenguin_ProbeManager_delete`: after `stop`, `DeleteGlobalRef` of
`get_callback_obj()`, which does nothing for `nullptr`. -/
def jniDelete (callbackObj : Option Nat) (vm : Vm) : Vm :=
  match callbackObj with
  | none => vm
  | some g => vm.deleteGlobal g

theorem construct_callbackSet (pton : Int → String → Bool) (remoteIp sourceIp : String)
    (ident : Int) :
    (construct pton remoteIp sourceIp ident).callbackSet =
      decide (pton afInet remoteIp ∨ pton afInet6 remoteIp) := by
  unfold construct
  split <;> simp_all

/-- Creating a manager and deleting it gives the JVM back its global references exactly
when the destination parses as IPv4 or IPv6. Otherwise the constructor returned before
storing the reference to the Kotlin object, `delete` releases `nullptr`, and that
reference stays live as long as the process runs. No path releases a reference that is
not live, and local references are untouched. -/
theorem create_delete_globals (pton : Int → String → Bool) (remoteIp sourceIp : String)
    (ident : Int) (vm : Vm) :
    let c := jniCreate pton remoteIp sourceIp ident vm
    let vm' := jniDelete c.1.2 c.2
    vm'.misuse = vm.misuse ∧ vm'.locals = vm.locals ∧
    vm'.globals = if pton afInet remoteIp ∨ pton afInet6 remoteIp then vm.globals
      else vm.fresh :: vm.globals := by
  simp only [jniCreate, construct_callbackSet, decide_eq_true_eq]
  split
  · have h : vm.fresh ∈ vm.newGlobal.2.globals := List.mem_cons_self _ _
    simp [jniDelete, Vm.deleteGlobal_of_mem h]
  · exact ⟨rfl, rfl, rfl⟩

/-! ## Local references -/

/-- `vm'` follows `vm` by calls that leave the global references and the thread alone, and
whose only live local reference is `x`, a fresh one, if any. -/
structure Vm.Allocates (vm vm' : Vm) (x : Option Nat) : Prop where
  locals : vm'.locals = x.toList ++ vm.locals
  globals : vm'.globals = vm.globals
  attached : vm'.attached = vm.attached
  fresh_le : vm.fresh ≤ vm'.fresh
  fresh : ∀ y ∈ x, vm.fresh ≤ y ∧ y < vm'.fresh

namespace Vm.Allocates

variable {vm vm' vm₁ vm₂ : Vm} {x y : Option Nat}

theorem none (vm : Vm) : vm.Allocates vm none :=
  ⟨rfl, rfl, rfl, le_rfl, fun _ h => nomatch h⟩

theorem newLocal (vm : Vm) (ok : Nat → Bool) : vm.Allocates (vm.newLocal ok).2 (vm.newLocal ok).1 := by
  unfold Vm.newLocal
  split
  · exact ⟨rfl, rfl, rfl, Nat.le_succ _, fun y hy => by cases hy; exact ⟨le_rfl, Nat.lt_succ_self _⟩⟩
  · exact Allocates.none vm

theorem newLocalIn (vm : Vm) (b : Bool) (ok : Nat → Bool) :
    vm.Allocates (vm.newLocalIn b ok).2.2 (vm.newLocalIn b ok).1 := by
  unfold Vm.newLocalIn
  split
  · exact ⟨rfl, rfl, rfl, le_rfl, fun _ h => nomatch h⟩
  · exact .newLocal vm ok

/-- A forbidden call touches no reference. -/
theorem check (h : vm.Allocates vm' x) (b : Bool) : vm.Allocates (vm'.check b) x := by
  cases b
  exacts [h, ⟨h.locals, h.globals, h.attached, h.fresh_le, h.fresh⟩]

/-- Releasing the first of two allocations after the second. -/
theorem release (h₁ : vm.Allocates vm₁ x) (h₂ : vm₁.Allocates vm₂ y) :
    vm.Allocates (vm₂.deleteLocal x) y ∧ (vm₂.deleteLocal x).misuse = vm₂.misuse := by
  cases x with
  | none =>
    exact ⟨⟨by show vm₂.locals = _; rw [h₂.locals, h₁.locals]; rfl, h₂.globals.trans h₁.globals,
      h₂.attached.trans h₁.attached, h₁.fresh_le.trans h₂.fresh_le,
      fun z hz => ⟨h₁.fresh_le.trans (h₂.fresh z hz).1, (h₂.fresh z hz).2⟩⟩, rfl⟩
  | some a =>
    have ha := h₁.fresh a rfl
    have hay : a ∉ y.toList := fun hy => by
      have := (h₂.fresh a (Option.mem_toList.1 hy)).1
      omega
    have hmem : a ∈ vm₂.locals := by simp [h₂.locals, h₁.locals]
    obtain ⟨hl, hm⟩ := Vm.deleteLocal_mem vm₂ hmem
    refine ⟨⟨?_, by simp [h₂.globals, h₁.globals], by simp [h₂.attached, h₁.attached],
      by simpa only [Vm.deleteLocal_fresh] using h₁.fresh_le.trans h₂.fresh_le, fun z hz => ?_⟩, hm⟩
    · rw [hl, h₂.locals, h₁.locals, Option.toList_some, List.singleton_append,
        List.erase_append_right _ hay, List.erase_cons_head]
    · have := h₂.fresh z hz
      have := h₁.fresh_le
      simp only [Vm.deleteLocal_fresh]
      omega

/-- Releasing the last live allocation restores the local references. -/
theorem deleteLocal (h : vm.Allocates vm' x) :
    (vm'.deleteLocal x).locals = vm.locals ∧ (vm'.deleteLocal x).misuse = vm'.misuse ∧
    (vm'.deleteLocal x).globals = vm.globals ∧ (vm'.deleteLocal x).attached = vm.attached := by
  obtain ⟨h', hm⟩ := h.release (Allocates.none vm')
  exact ⟨by simpa using h'.locals, hm, h'.globals, h'.attached⟩

end Vm.Allocates

/-! ## `trigger_callback` -/

/-- What the JVM answers one `trigger_callback`: whether `GetEnv` fails for another reason
than a detached thread, whether `AttachCurrentThread` succeeds, and which allocations
succeed, by the reference number they would return. -/
structure CallbackEnv where
  getEnvFails : Bool
  attachOk : Bool
  allocOk : Nat → Bool

/-- The statuses whose branch of the `switch` makes a local reference for an argument of
`NewObject`: `err_msg`, `packet_data`, `offender`. -/
def ProbeStatus.argLocal : ProbeStatus → Bool
  | .fatalError | .success | .error => true
  | _ => false

/-- The `switch` of `trigger_callback`, entered with `pending` telling whether the
`NewStringUTF` of `remote_ip` left an exception pending: the local reference for the
branch's argument, for `SUCCESS` the `SetByteArrayRegion` on that array (made whether or
not `NewByteArray` returned it), `NewObject` of the result `triggerCallback` describes, and
the release of the argument. `none` in the `default` branch and when `NewObject` returns
`nullptr`. -/
def buildResult (env : CallbackEnv) (p : ProbeContext) (pending : Bool) (vm : Vm) :
    Option (ProbeResult × Nat) × Vm :=
  match triggerCallback p with
  | none => (none, vm)
  | some r =>
    let a := if p.status.argLocal then vm.newLocalIn pending env.allocOk else (none, pending, vm)
    let vmA := if p.status = .success then a.2.2.check a.2.1 else a.2.2
    let o := vmA.newLocalIn a.2.1 env.allocOk
    (o.1.map (r, ·), o.2.2.deleteLocal a.1)

/-- `trigger_callback(obj, probe)` with the library's JNI globals `lib` and whether `obj`
is set: the state of the JVM it leaves, and the call of the Java callback it makes, if
any, with the record's `id`, the result and the reference to the result object. The
releases are allowed with an exception pending, the Java callback is called only after a
`NewObject` that succeeded with none pending, and the exception check after it clears what
is pending and touches no reference. -/
def triggerCallbackJni (env : CallbackEnv) (lib : JniLib) (obj : Bool) (p : ProbeContext)
    (vm : Vm) : Vm × Option (Int × ProbeResult × Nat) :=
  let cb := lib.methods.getD 0 default
  if ¬(lib.javaVm ∧ obj ∧ cb.cls.isSome ∧ cb.mid.isSome) then (vm, none)
  else if env.getEnvFails then (vm, none)
  else if ¬vm.attached ∧ ¬env.attachOk then (vm, none)
  else
    let remoteIp := { vm with attached := true }.newLocalIn false env.allocOk
    let res := buildResult env p remoteIp.2.1 remoteIp.2.2
    let vm' := res.2.deleteLocal remoteIp.1
    let done := match res.1 with
      | none => (vm', none)
      | some (r, o) => (vm'.deleteLocal (some o), some (p.id, r, o))
    ({ done.1 with attached := vm.attached }, done.2)

/-- The `switch` leaves live only the result object it returns, fresh, made for the result
`triggerCallback` describes. -/
theorem buildResult_allocates (env : CallbackEnv) (p : ProbeContext) (b : Bool) (vm : Vm) :
    vm.Allocates (buildResult env p b vm).2 ((buildResult env p b vm).1.map (·.2)) ∧
    ∀ r o, (buildResult env p b vm).1 = some (r, o) → triggerCallback p = some r := by
  unfold buildResult
  cases htc : triggerCallback p with
  | none => exact ⟨.none vm, fun _ _ h => nomatch h⟩
  | some r =>
    dsimp only
    have ha : vm.Allocates
        (if p.status.argLocal then vm.newLocalIn b env.allocOk else (none, b, vm)).2.2
        (if p.status.argLocal then vm.newLocalIn b env.allocOk else (none, b, vm)).1 := by
      split
      exacts [.newLocalIn vm b _, .none vm]
    generalize (if p.status.argLocal then vm.newLocalIn b env.allocOk else (none, b, vm)) = a at ha
    have hA : vm.Allocates (if p.status = .success then a.2.2.check a.2.1 else a.2.2) a.1 := by
      split
      exacts [ha.check _, ha]
    generalize (if p.status = .success then a.2.2.check a.2.1 else a.2.2) = vA at hA
    refine ⟨?_, fun r' o h => ?_⟩
    · simpa [Option.map_map] using (hA.release (.newLocalIn vA a.2.1 env.allocOk)).1
    · obtain ⟨o', -, h'⟩ := Option.map_eq_some'.1 h
      exact congrArg some (Prod.mk.inj h').1

/-- With no exception pending and every allocation granted, the `switch` makes no
forbidden call, and it returns an object exactly for a result `triggerCallback` describes. -/
theorem buildResult_ok (env : CallbackEnv) (p : ProbeContext) (vm : Vm)
    (halloc : ∀ n, env.allocOk n = true) :
    (buildResult env p false vm).2.misuse = vm.misuse ∧
      (buildResult env p false vm).1.map (·.1) = triggerCallback p := by
  have hok : ∀ v : Vm, v.newLocalIn false env.allocOk = (some v.fresh, false, (v.newLocal env.allocOk).2) :=
    fun v => Vm.newLocalIn_ok v (halloc _)
  have hnew : ∀ v : Vm, v.Allocates (v.newLocal env.allocOk).2 (some v.fresh) := fun v => by
    simpa only [hok] using Vm.Allocates.newLocalIn v false env.allocOk
  unfold buildResult
  cases triggerCallback p with
  | none => exact ⟨rfl, rfl⟩
  | some r =>
    obtain ⟨x, v, ha, hal, hm⟩ : ∃ x v, (if p.status.argLocal then vm.newLocalIn false env.allocOk
        else (none, false, vm)) = (x, false, v) ∧ vm.Allocates v x ∧ v.misuse = vm.misuse := by
      split
      exacts [⟨_, _, hok vm, hnew vm, Vm.newLocal_misuse vm⟩, ⟨none, vm, rfl, .none vm, rfl⟩]
    dsimp only
    rw [ha]
    simp only [Vm.check_false, ite_self, hok, Option.map_some']
    exact ⟨by rw [(hal.release (hnew v)).2, Vm.newLocal_misuse, hm], trivial⟩

/-- What one `trigger_callback` leaves, `vm'`, and the call of the Java callback it makes:
the references and the thread as they were, no forbidden call when every allocation is
granted, and a call only with the JNI globals set, the record's `id` and a fresh object for
the result `triggerCallback` describes. -/
structure CallbackEffect (env : CallbackEnv) (lib : JniLib) (obj : Bool) (p : ProbeContext)
    (vm vm' : Vm) (call : Option (Int × ProbeResult × Nat)) : Prop where
  locals : vm'.locals = vm.locals
  globals : vm'.globals = vm.globals
  attached : vm'.attached = vm.attached
  misuse : (∀ n, env.allocOk n = true) → vm'.misuse = vm.misuse
  call : ∀ id r o, call = some (id, r, o) →
    id = p.id ∧ triggerCallback p = some r ∧ vm.fresh ≤ o ∧
      lib.javaVm = true ∧ obj = true ∧ (lib.methods.getD 0 default).cls.isSome = true

theorem triggerCallbackJni_effect (env : CallbackEnv) (lib : JniLib) (obj : Bool)
    (p : ProbeContext) (vm : Vm) :
    CallbackEffect env lib obj p vm (triggerCallbackJni env lib obj p vm).1
      (triggerCallbackJni env lib obj p vm).2 := by
  unfold triggerCallbackJni
  dsimp only
  split_ifs with hg hf ha
  · exact ⟨rfl, rfl, rfl, fun _ => rfl, fun _ _ _ h => nomatch h⟩
  · exact ⟨rfl, rfl, rfl, fun _ => rfl, fun _ _ _ h => nomatch h⟩
  swap
  · exact ⟨rfl, rfl, rfl, fun _ => rfl, fun _ _ _ h => nomatch h⟩
  · have hmis : (∀ n, env.allocOk n = true) →
        (buildResult env p ({ vm with attached := true }.newLocalIn false env.allocOk).2.1
          ({ vm with attached := true }.newLocalIn false env.allocOk).2.2).2.misuse = vm.misuse :=
      fun halloc => by
        rw [Vm.newLocalIn_ok _ (halloc _)]
        exact (buildResult_ok env p _ halloc).1.trans (Vm.newLocal_misuse _)
    have h₁ := Vm.Allocates.newLocalIn { vm with attached := true } false env.allocOk
    generalize { vm with attached := true }.newLocalIn false env.allocOk = ri at h₁ hmis ⊢
    obtain ⟨h₂, hres⟩ := buildResult_allocates env p ri.2.1 ri.2.2
    generalize buildResult env p ri.2.1 ri.2.2 = res at h₂ hres hmis ⊢
    obtain ⟨h₃, hm₃⟩ := h₁.release h₂
    generalize res.2.deleteLocal ri.1 = vm' at h₃ hm₃ ⊢
    have hfresh : vm.fresh ≤ ri.2.2.fresh := h₁.fresh_le
    obtain ⟨hgv, hobj, hcls, -⟩ := hg
    rcases hr : res.1 with _ | ⟨r, o⟩ <;> rw [hr] at h₃ <;> dsimp only
    · exact ⟨by simpa using h₃.locals, h₃.globals, rfl, fun h => hm₃.trans (hmis h),
        fun _ _ _ h => nomatch h⟩
    · obtain ⟨hl, hm, hgl, -⟩ := h₃.deleteLocal
      refine ⟨hl, hgl, rfl, fun h => hm.trans (hm₃.trans (hmis h)), fun id r' o' h => ?_⟩
      obtain ⟨rfl, rfl, rfl⟩ : p.id = id ∧ r = r' ∧ o = o' := by simpa using h
      exact ⟨rfl, hres _ _ hr, hfresh.trans (h₂.fresh o (by simp [hr])).1, hgv, hobj, hcls⟩

/-- Whatever the JVM answers and whatever the record, `trigger_callback` releases every local
reference it makes and no other, touches no global reference, and leaves the thread
attached exactly as it found it (it detaches exactly when it attached). When the JVM grants
every allocation it makes no call JNI forbids. It calls the Java callback at most once,
only when `java_vm`, the callback object and `CALLBACK_CLS` are set, and then with the
record's `id` and an object it has just made for the result `triggerCallback` describes. -/
theorem triggerCallbackJni_refs (env : CallbackEnv) (lib : JniLib) (obj : Bool)
    (p : ProbeContext) (vm : Vm) :
    (triggerCallbackJni env lib obj p vm).1.locals = vm.locals ∧
    (triggerCallbackJni env lib obj p vm).1.globals = vm.globals ∧
    (triggerCallbackJni env lib obj p vm).1.attached = vm.attached ∧
    ((∀ n, env.allocOk n = true) → (triggerCallbackJni env lib obj p vm).1.misuse = vm.misuse) ∧
    ∀ id r o, (triggerCallbackJni env lib obj p vm).2 = some (id, r, o) →
      id = p.id ∧ triggerCallback p = some r ∧ vm.fresh ≤ o ∧
      lib.javaVm = true ∧ obj = true ∧ (lib.methods.getD 0 default).cls.isSome = true :=
  have h := triggerCallbackJni_effect env lib obj p vm
  ⟨h.locals, h.globals, h.attached, h.misuse, h.call⟩

/-- The JVM grants `remote_ip` but not the `packet_data` array of a `SUCCESS` record: the
`SetByteArrayRegion` on the `nullptr` is a call JNI forbids. -/
example : (triggerCallbackJni ⟨false, true, fun n => n == 0⟩
    (jniOnLoad fullEnv jniLoaded emptyVm).2.1 true { status := .success } emptyVm).1.misuse = true := by
  decide

/-- With every allocation succeeding and the thread attached or attachable, a terminal
record reaches the Java callback. -/
theorem triggerCallbackJni_calls {env : CallbackEnv} {lib : JniLib} {p : ProbeContext} {vm : Vm}
    (hg : lib.javaVm = true ∧ (lib.methods.getD 0 default).cls.isSome = true ∧
      (lib.methods.getD 0 default).mid.isSome = true)
    (hf : env.getEnvFails = false) (ha : vm.attached = true ∨ env.attachOk = true)
    (halloc : ∀ n, env.allocOk n = true) {r : ProbeResult} (hr : triggerCallback p = some r) :
    ∃ o, (triggerCallbackJni env lib true p vm).2 = some (p.id, r, o) := by
  have hb : ∀ vm' : Vm, ∃ o, (buildResult env p false vm').1 = some (r, o) := fun vm' => by
    obtain ⟨⟨r', o⟩, h, hr'⟩ := Option.map_eq_some'.1 ((buildResult_ok env p vm' halloc).2.trans hr)
    exact ⟨o, by rw [h, show r' = r from hr']⟩
  unfold triggerCallbackJni
  dsimp only
  rw [if_neg (not_not.2 ⟨hg.1, rfl, hg.2.1, hg.2.2⟩), if_neg (by simp [hf]),
    if_neg (by cases ha <;> simp [*]), Vm.newLocalIn_ok _ (halloc _)]
  obtain ⟨o, ho⟩ := hb ({ vm with attached := true }.newLocal env.allocOk).2
  exact ⟨o, by rw [ho]⟩

/-! ## From the engine to Java -/

/-- Every record the engine passes to `trigger_callback` reaches Java: after a successful
`JNI_OnLoad`, with the callback object set, a thread the JVM attaches and allocations that
succeed, the Java `probeCallback` is called with the record's `id` and an object made for
the result `triggerCallback` describes, and `trigger_callback` releases every local
reference it made. -/
theorem delivered_reaches_java {s : Engine} (hs : Reachable s) {envL : LoadEnv} {vm₀ : Vm}
    (hload : (jniOnLoad envL jniLoaded vm₀).1 = jniVersion16) {env : CallbackEnv} {vm : Vm}
    (hf : env.getEnvFails = false) (ha : vm.attached = true ∨ env.attachOk = true)
    (halloc : ∀ n, env.allocOk n = true) :
    ∀ e ∈ s.delivered, ∃ r o,
      (triggerCallbackJni env (jniOnLoad envL jniLoaded vm₀).2.1 true e.2 vm).2 =
        some (e.2.id, r, o) ∧ triggerCallback e.2 = some r ∧
      (triggerCallbackJni env (jniOnLoad envL jniLoaded vm₀).2.1 true e.2 vm).1.locals =
        vm.locals := by
  intro e he
  obtain ⟨r, hr⟩ := Option.isSome_iff_exists.1
    ((triggerCallback_isSome e.2).2 (hs.statusInv.delivered e he))
  have hall := (jniOnLoad_globals envL vm₀).2.2.2 hload
  have hlen : (jniOnLoad envL jniLoaded vm₀).2.1.methods.length = 8 := by
    unfold jniOnLoad
    split
    · exact (onLoadLoop_length envL [] jniMethods vm₀).trans rfl
    · rfl
  have h0 : (jniOnLoad envL jniLoaded vm₀).2.1.methods.getD 0 default ∈
      (jniOnLoad envL jniLoaded vm₀).2.1.methods := by
    rw [List.getD_eq_getElem?_getD, List.getElem?_eq_getElem (by omega), Option.getD_some]
    exact List.getElem_mem _
  have hvm : (jniOnLoad envL jniLoaded vm₀).2.1.javaVm = true := by
    unfold jniOnLoad; split <;> rfl
  obtain ⟨o, ho⟩ := triggerCallbackJni_calls ⟨hvm, (hall _ h0).1, (hall _ h0).2⟩ hf ha halloc hr
  exact ⟨r, o, ho, hr, (triggerCallbackJni_effect env _ true e.2 vm).locals⟩

/-- A JVM that attaches the worker and never runs out of memory. -/
def healthyEnv : CallbackEnv := ⟨false, true, fun _ => true⟩

theorem delivered_reaches_java_reply :
    Reachable replyBatchState ∧ (jniOnLoad fullEnv jniLoaded emptyVm).1 = jniVersion16 ∧
    healthyEnv.getEnvFails = false ∧ (emptyVm.attached = true ∨ healthyEnv.attachOk = true) ∧
    (∀ n, healthyEnv.allocOk n = true) ∧
    ∀ e ∈ replyBatchState.delivered, ∃ r o,
      (triggerCallbackJni healthyEnv (jniOnLoad fullEnv jniLoaded emptyVm).2.1 true e.2
        emptyVm).2 = some (e.2.id, r, o) ∧ triggerCallback e.2 = some r ∧
      (triggerCallbackJni healthyEnv (jniOnLoad fullEnv jniLoaded emptyVm).2.1 true e.2
        emptyVm).1.locals = emptyVm.locals :=
  have hs : Reachable replyBatchState := Reachable.run (Option.some_get _).symm
  have hload : (jniOnLoad fullEnv jniLoaded emptyVm).1 = jniVersion16 := by decide
  ⟨hs, hload, rfl, .inr rfl, fun _ => rfl,
    delivered_reaches_java hs hload (show healthyEnv.getEnvFails = false from rfl) (.inr rfl)
      fun _ => rfl⟩

end Icmpenguin
