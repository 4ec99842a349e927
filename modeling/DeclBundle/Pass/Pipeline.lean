import DeclBundle.Pass.Stage

/-!
Whole passes. The stages come first and then any further phases; around each of them the plugins
are called. The first failure ends the pass.
-/

namespace DeclBundle

structure Phase where
  name : String
  run : Pass Unit

structure Plugin where
  name : String
  before : String → Pass Unit
  after : String → Pass Unit

structure Pipeline where
  compiler : Compiler
  plugins : List Plugin
  phases : List Phase

namespace Pipeline

def plain (compiler : Compiler) : Pipeline :=
  ⟨compiler, [], []⟩

def call (c : Call) (pass : Pass Unit) : Pass Unit := do
  modify fun s => { s with calls := s.calls ++ [c] }
  pass

def runPhase (plugins : List Plugin) (phase : Phase) : Pass Unit := do
  plugins.forM fun plugin => call (.before plugin.name phase.name) (plugin.before phase.name)
  call (.phase phase.name) phase.run
  plugins.forM fun plugin => call (.after plugin.name phase.name) (plugin.after phase.name)

def stages (s : Schedule) (compiler : Compiler) : List Phase :=
  Stage.all.map fun stage => ⟨stage.name, stage.run s compiler⟩

def pass (p : Pipeline) (s : Schedule) : Pass Unit :=
  (stages s p.compiler ++ p.phases).forM (runPhase p.plugins)

def run (p : Pipeline) (s : Schedule) (config : Config) (fs : FileSystem) :
    Except PassError Unit × State :=
  (p.pass s).run ⟨fs, .new config, []⟩

end Pipeline

end DeclBundle
