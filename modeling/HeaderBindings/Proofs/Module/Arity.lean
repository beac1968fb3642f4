import HeaderBindings.Proofs.Module.Contents

/-!
# What a method passes on

A method of a wrapper class calls the binding of a function, with the object in the place of the
function's first parameter.  The two lists of parameters are made apart from each other.  A binding
takes all parameters that are no output.  A method takes the object and then those of the other
parameters that are no output, but whether the first parameter is one makes no difference to it.

`arguments_of_mem_module` says when the two fit together: exactly if the first parameter is not an
output.  If it is one, the call has one argument too many, as `method_of_output` shows for a
function that the conventions give such a parameter by its type alone.
-/

set_option autoImplicit false

namespace HeaderBindings

/-- The name and the parameters of a binding. -/
def Node.bindingArguments? : Node → Option (Text × List Text)
  | .binding name arguments _ _ _ => some (name, arguments)
  | _ => none

/-- A binding takes its first parameter unless that is an output, and then what is left. -/
theorem Prototype.arguments_zero {f : Prototype} {receiver : Parameter} {others : List Parameter}
    (h : f.params = receiver :: others) :
    f.arguments 0 =
      (if receiver.direction = .output then [] else [receiver.name]) ++ f.arguments 1 := by
  rw [arguments, arguments, h, List.drop_zero, List.drop_one, List.tail_cons, List.filter_cons]
  by_cases hout : receiver.direction = .output
  · simp [hout]
  · simp [hout]

namespace Sources

variable {s : Sources} {prologue epilogue : Option Text} {nodes : List Node}

/-- A function that becomes a method has a first parameter. -/
theorem exists_receiver_of_mem_generatedFunctions {cls : Text} {f : Prototype}
    (h : f ∈ s.generatedFunctions cls) : ∃ receiver others, f.params = receiver :: others := by
  have hreceiver : s.receiver? f = some cls :=
    beq_iff_eq.1 (List.mem_filter.1 (List.mem_filter.1 h).1).2
  obtain ⟨receiver, hhead, -⟩ := Option.bind_eq_some_iff.1 hreceiver
  obtain ⟨others, hparams⟩ := List.head?_eq_some_iff.1 hhead
  exact ⟨receiver, others, hparams⟩

/-- A module has a binding for every function. -/
theorem binding_mem_module (h : s.module? prologue epilogue = some nodes) {f : Prototype}
    (hf : f ∈ s.declarations.functions) : s.binding f ∈ nodes := by
  obtain ⟨wrappers, -, hmem⟩ := mem_module h
  have hbinding : s.binding f ∈ s.bindings := List.mem_cons_of_mem _ (List.mem_map_of_mem hf)
  exact (hmem _).2 (.inr (.inr (.inl hbinding)))

/-- What a method says of its function: it hands on the object and the later arguments. -/
theorem arguments_of_method? {cls : Text} {f : Prototype} {method : Method}
    (h : s.method? cls f = some method) :
    method.target = f.name ∧ method.arguments = ("self" : Text) :: f.arguments 1 := by
  obtain ⟨doc, -, rfl⟩ := Option.map_eq_some_iff.1 h
  exact ⟨rfl, rfl⟩

/-- **A method fits the binding of its function exactly if the object stands for no output.**  Then
both have the same parameters behind the first one; otherwise the method passes one too many. -/
theorem arguments_of_mem_module (h : s.module? prologue epilogue = some nodes) :
    ∀ node ∈ nodes, ∀ method ∈ node.methods,
      ∃ f ∈ s.declarations.functions, ∃ receiver others, f.params = receiver :: others ∧
        ∃ taken, (∃ b ∈ nodes, b.bindingArguments? = some (method.target, taken)) ∧
          (receiver.direction ≠ .output →
            ∃ rest, method.arguments = ("self" : Text) :: rest ∧ taken = receiver.name :: rest) ∧
          (receiver.direction = .output → method.arguments = ("self" : Text) :: taken) ∧
          (method.arguments.length = taken.length ↔ receiver.direction ≠ .output) := by
  intro node hnode method hmethod
  obtain ⟨cls, -, f, hf, hmade⟩ := exists_method_of_mem_module h node hnode method hmethod
  obtain ⟨receiver, others, hparams⟩ := exists_receiver_of_mem_generatedFunctions hf
  have hfunction : f ∈ s.declarations.functions :=
    (List.mem_filter.1 (List.mem_filter.1 hf).1).1
  obtain ⟨htarget, harguments⟩ := arguments_of_method? hmade
  have htaken := Prototype.arguments_zero hparams
  refine ⟨f, hfunction, receiver, others, hparams, f.arguments 0,
    ⟨_, binding_mem_module h hfunction, by rw [htarget]; rfl⟩,
    fun hin ↦ ⟨f.arguments 1, harguments, ?_⟩, fun hout ↦ ?_, ?_⟩
  · rw [htaken, if_neg hin, List.singleton_append]
  · rw [harguments, htaken, if_pos hout, List.nil_append]
  · rw [harguments, htaken]
    by_cases hout : receiver.direction = .output <;> simp [hout]

/-- What a module for one header is made from, with a wrapper class for the pointers to
enumeration errors. -/
def errorsLibrary (header : Text) : Sources :=
  let conventions : Conventions := { wrapperClasses := ["Errors"] }
  let declarations := (Declarations.ofHeaders conventions [] [("a.h", header)]).1
  let types := ((∅ : Table).insert "XnErrors*" "Errors").insert "XnEnumerationErrors*" "Errors"
  { conventions, declarations, types := .build conventions types declarations, overrides := ∅ }

/-- A function whose object is passed in, and which has one parameter for a result. -/
def inputReceiver : Sources :=
  errorsLibrary "XN_C_API int xnErrorsList(XnErrors* pErrors, int* pnCount, int nMax);\n"

theorem arguments_of_mem_module_inputReceiver : ∃ nodes ∈ inputReceiver.module? none none,
    ∃ node ∈ nodes, ∃ method ∈ node.methods,
      method.arguments = ([("self" : Text), ("nMax" : Text)] : List Text) ∧
      ∃ taken, (∃ b ∈ nodes, b.bindingArguments? = some (method.target, taken)) ∧
        method.arguments.length = taken.length := by
  obtain ⟨nodes, hnodes, node, hnode, method, hmethod, harguments⟩ :
      ∃ nodes ∈ inputReceiver.module? none none, ∃ node ∈ nodes, ∃ method ∈ node.methods,
        method.arguments = ([("self" : Text), ("nMax" : Text)] : List Text) := by decide +kernel
  have hinput : ∀ f ∈ inputReceiver.declarations.functions, ∀ receiver ∈ f.params.head?,
      receiver.direction ≠ .output := by decide +kernel
  obtain ⟨f, hf, receiver, others, hparams, taken, htaken, -, -, hlength⟩ :=
    arguments_of_mem_module hnodes node hnode method hmethod
  have hreceiver := hinput f hf receiver (by rw [hparams]; rfl)
  exact ⟨nodes, hnodes, node, hnode, method, hmethod, harguments, taken, htaken,
    hlength.2 hreceiver⟩

/-- A function whose only parameter has a type that is one for results by convention. -/
def outputReceiver : Sources :=
  errorsLibrary "XN_C_API int xnErrorsCount(XnEnumerationErrors* pErrors);\n"

/-- The method for it passes an argument that its binding does not take. -/
theorem method_of_output : ∃ nodes ∈ outputReceiver.module? none none,
    ∃ node ∈ nodes, ∃ method ∈ node.methods, method.target = ("xnErrorsCount" : Text) ∧
      method.arguments = [("self" : Text)] ∧
      ∃ b ∈ nodes, b.bindingArguments? = some (method.target, []) := by
  decide +kernel

end Sources

end HeaderBindings
